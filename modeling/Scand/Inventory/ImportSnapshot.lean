/- path: Scand/Inventory/ImportSnapshot
   layer: code model and its results
   digest: InventoryRepository::import_snapshot as one transaction, and when the next snapshot of a
   history of imports is accepted. -/

import Scand.Inventory.Database
import Scand.Inventory.Snapshot

set_option autoImplicit false
set_option relaxedAutoImplicit false

namespace Scand.Inventory.ImportSnapshot

open Scand.Foundation.KeyedTable
open Scand.Inventory.Database
open Scand.Inventory.Snapshot

structure Result (α : Type) where
  value : Option α
  error : String := ""
  deriving DecidableEq

def Result.success {α : Type} (v : α) : Result α := { value := some v }
def Result.failure {α : Type} (e : String) : Result α := { value := none, error := e }
def Result.ok {α : Type} (r : Result α) : Bool := r.value.isSome

inductive ImportStatus
  | imported | duplicate
  deriving DecidableEq

structure ImportResult where
  status : ImportStatus
  batchId : String
  stocksAccepted : Nat := 0
  costsAccepted : Nat := 0
  deriving DecidableEq

inductive SaveProgress
  | done (stocks costs : Nat) (batchId : String)
  | failed (error batchId : String)
  deriving DecidableEq

structure ImportOutcome where
  result : Result ImportResult
  db : InventoryDb
  progress : Option SaveProgress := none
  rawLog : Option String := none

def nonEmpty (v : Option String) : Option String := v.filter (· ≠ "")

section Statements

variable (pf : Platform) (tenantId : Int)

def warehouseRow (w : WarehouseInput) : WarehouseRow where
  tenantId := tenantId
  warehouseId := w.warehouseId
  warehouseName := w.warehouseName

def copyWarehouse (w : WarehouseInput) : Except SqlError WarehouseRow := do
  let _ ← varcharUncut 64 w.warehouseId
  let _ ← varcharUncut 255 w.warehouseName
  return warehouseRow tenantId w

def writeWarehouses (req : SnapshotRequest) (db : InventoryDb) : Except SqlError InventoryDb :=
  if req.warehouses.isEmpty then .ok db
  else do
    let rows ← req.warehouses.mapM (copyWarehouse tenantId)
    db.upsertWarehouses rows

def stockRow (req : SnapshotRequest) (measuredAt : Int) (s : StockInput) : StockRow where
  tenantId := tenantId
  sku1c := s.sku1c
  offerId := nonEmpty s.offerId
  warehouseId := s.warehouseId
  available := s.available
  reserved := s.reserved
  measuredAt := measuredAt
  batchId := req.batchId

/-- The lengths that COPY checks while it fills `tmp_stocks`. -/
def copyStock (s : StockInput) : Except SqlError StockInput := do
  let _ ← varcharUncut 128 s.sku1c
  let _ ← varcharUncut 128 ((nonEmpty s.offerId).getD "")
  let _ ← varcharUncut 64 s.warehouseId
  return s

def insertedStock (req : SnapshotRequest) (measuredAt : Int) (s : StockInput) :
    Except SqlError StockRow := do
  let _ ← int4 s.available
  let _ ← int4 s.reserved
  return stockRow tenantId req measuredAt s

def writeStocks (req : SnapshotRequest) (db : InventoryDb) : Except SqlError InventoryDb :=
  if req.stocks.isEmpty then .ok db
  else do
    let copied ← req.stocks.mapM copyStock
    let measuredAt ← pf.readTimestamptz req.measuredAt
    let _ ← varcharUncut 128 req.batchId
    let rows ← copied.mapM (insertedStock tenantId req measuredAt)
    db.insertStocks rows

/-- The batch cost of one cost row; a cost that is not positive is skipped. -/
def writeBatchCost (c : CostInput) (db : InventoryDb) : Except SqlError InventoryDb :=
  match c.batchAvgCost with
  | some avg =>
      if avg > 0 then do
        let _ ← varcharUncut 128 c.sku1c
        let cost ← numeric 14 4 avg
        return db.upsertCostBatch { tenantId := tenantId, sku1c := c.sku1c, cost := cost }
      else .ok db
  | none => .ok db

/-- The supplier cost of one cost row. A dealer cost is written only next to a purchase cost, and an
absent purchase date is passed on as the empty text. -/
def writeSupplierCost (c : CostInput) (db : InventoryDb) : Except SqlError InventoryDb :=
  if c.purchaseCost.isSome || c.dealerCost.isSome then
    match c.purchaseCost with
    | some price => do
        let purchaseSourceAt ← pf.readTimestamptz (c.purchaseSourceAt.getD "")
        let _ ← varcharUncut 128 c.sku1c
        let purchase ← numeric 14 4 price
        let _ ← varcharUncut 32 (c.purchaseSource.getD "")
        let dealer ← numeric 14 4 (c.dealerCost.getD 0)
        return db.upsertCostSupplier {
          tenantId := tenantId
          sku1c := c.sku1c
          purchase := purchase
          purchaseSource := c.purchaseSource.getD ""
          purchaseSourceAt := purchaseSourceAt
          dealer := dealer }
    | none => .ok db
  else .ok db

def writeCosts : List CostInput → InventoryDb → Except SqlError InventoryDb
  | [], db => .ok db
  | c :: cs, db => do
      let db ← writeBatchCost tenantId c db
      let db ← writeSupplierCost pf tenantId c db
      writeCosts cs db

def writeSnapshot (req : SnapshotRequest) (payloadHash : String) (db : InventoryDb) :
    Except SqlError InventoryDb := do
  let measuredAt ← pf.readTimestamptz req.measuredAt
  let _ ← varcharUncut 128 req.batchId
  let _ ← varcharUncut 64 payloadHash
  db.insertSnapshot {
    tenantId := tenantId
    batchId := req.batchId
    payloadHash := payloadHash
    measuredAt := measuredAt
    stocksCount := req.stocks.length
    costsCount := req.costs.length }

/-- The statements of the transaction after the batch check, in their order. -/
def importStatements (req : SnapshotRequest) (payloadHash : String) (db : InventoryDb) :
    Except SqlError InventoryDb := do
  let db ← writeWarehouses tenantId req (db.deleteCosts tenantId)
  let db ← writeStocks pf tenantId req db
  let db ← writeCosts pf tenantId req.costs db
  writeSnapshot pf tenantId req payloadHash db

def existingHash (db : InventoryDb) (batchId : String) : Option String :=
  (db.snapshots.rows.find? fun r => r.key = (tenantId, batchId)).map SnapshotRow.payloadHash

def importSnapshot (req : SnapshotRequest) (db : InventoryDb) : ImportOutcome :=
  if req.stocks.isEmpty && req.costs.isEmpty then
    { result := .failure "Снимок не может быть пустым", db := db }
  else if req.batchId.isEmpty || req.batchId.utf8ByteSize > 128 then
    { result := .failure "batch_id обязателен (1..128)", db := db }
  else if req.measuredAt.isEmpty then
    { result := .failure "measured_at обязателен", db := db }
  else
    let payloadHash := pf.sha256Hex (canonicalJson req)
    match existingHash tenantId db req.batchId with
    | some existing =>
        if existing = payloadHash then
          { result := .success { status := .duplicate, batchId := req.batchId }, db := db }
        else
          { result := .failure "batch_id уже использован для другого содержимого", db := db }
    | none =>
        match importStatements pf tenantId req payloadHash db with
        | .ok stored =>
            { result := .success {
                status := .imported
                batchId := req.batchId
                stocksAccepted := req.stocks.length
                costsAccepted := req.costs.length }
              db := stored
              progress := some (.done req.stocks.length req.costs.length req.batchId) }
        | .error e =>
            { result := .failure (pf.what e)
              db := db
              progress := some (.failed (pf.what e) req.batchId)
              rawLog := some ("DB import_snapshot error: " ++ pf.what e) }

def importAll (history : List SnapshotRequest) (db : InventoryDb) : InventoryDb :=
  history.foldl (fun d req => (importSnapshot pf tenantId req d).db) db

end Statements

theorem importSnapshot_cases (pf : Platform) (tenantId : Int) (req : SnapshotRequest)
    (db : InventoryDb) :
    ((importSnapshot pf tenantId req db).db = db ∧
      (importSnapshot pf tenantId req db).result.value.map ImportResult.status ≠ some .imported) ∨
    ∃ stored, importStatements pf tenantId req (pf.sha256Hex (canonicalJson req)) db = .ok stored ∧
      (importSnapshot pf tenantId req db).db = stored ∧
      (importSnapshot pf tenantId req db).result.value = some {
        status := .imported, batchId := req.batchId,
        stocksAccepted := req.stocks.length, costsAccepted := req.costs.length } := by
  unfold importSnapshot
  split
  · exact Or.inl ⟨rfl, by simp [Result.failure]⟩
  split
  · exact Or.inl ⟨rfl, by simp [Result.failure]⟩
  split
  · exact Or.inl ⟨rfl, by simp [Result.failure]⟩
  cases existingHash tenantId db req.batchId with
  | some existing =>
      dsimp only
      split
      · exact Or.inl ⟨rfl, by simp [Result.success]⟩
      · exact Or.inl ⟨rfl, by simp [Result.failure]⟩
  | none =>
      dsimp only
      cases importStatements pf tenantId req (pf.sha256Hex (canonicalJson req)) db with
      | ok stored => exact Or.inr ⟨stored, rfl, rfl, rfl⟩
      | error e => exact Or.inl ⟨rfl, by simp [Result.failure]⟩

/-- The change from `db` to `u` concerns only the prices of the named products of one tenant. -/
structure PricesOnly (tenantId : Int) (skus : List String) (db u : InventoryDb) : Prop where
  stocks : u.stocks = db.stocks
  snapshots : u.snapshots = db.snapshots
  products : u.products = db.products
  batch : ∀ row : CostBatchRow, row.key ∉ skus.map (Prod.mk tenantId) →
    (row ∈ u.costBatch.rows ↔ row ∈ db.costBatch.rows)
  supplier : ∀ row : CostSupplierRow, row.key ∉ skus.map (Prod.mk tenantId) →
    (row ∈ u.costSupplier.rows ↔ row ∈ db.costSupplier.rows)

theorem PricesOnly.refl (tenantId : Int) (skus : List String) (db : InventoryDb) :
    PricesOnly tenantId skus db db :=
  ⟨rfl, rfl, rfl, fun _ _ => Iff.rfl, fun _ _ => Iff.rfl⟩

theorem PricesOnly.trans {tenantId : Int} {skus : List String} {a b c : InventoryDb}
    (first : PricesOnly tenantId skus a b) (second : PricesOnly tenantId skus b c) :
    PricesOnly tenantId skus a c where
  stocks := second.stocks.trans first.stocks
  snapshots := second.snapshots.trans first.snapshots
  products := second.products.trans first.products
  batch row out := (second.batch row out).trans (first.batch row out)
  supplier row out := (second.supplier row out).trans (first.supplier row out)

theorem PricesOnly.mono {tenantId : Int} {skus more : List String} {a b : InventoryDb}
    (change : PricesOnly tenantId skus a b) (sub : skus ⊆ more) : PricesOnly tenantId more a b where
  stocks := change.stocks
  snapshots := change.snapshots
  products := change.products
  batch row out := change.batch row fun mem => out (List.map_subset _ sub mem)
  supplier row out := change.supplier row fun mem => out (List.map_subset _ sub mem)

section Frames

variable {pf : Platform} {tenantId : Int} {req : SnapshotRequest} {db u : InventoryDb}

theorem upsertCostBatch_pricesOnly (row : CostBatchRow) :
    PricesOnly row.tenantId [row.sku1c] db (db.upsertCostBatch row) := by
  refine ⟨rfl, rfl, rfl, ?_, fun _ _ => Iff.rfl⟩
  intro other out
  exact Table.mem_upsert_of_ne fun same => out (List.mem_singleton.mpr same)

theorem upsertCostSupplier_pricesOnly (row : CostSupplierRow) :
    PricesOnly row.tenantId [row.sku1c] db (db.upsertCostSupplier row) := by
  refine ⟨rfl, rfl, rfl, fun _ _ => Iff.rfl, ?_⟩
  intro other out
  exact Table.mem_upsert_of_ne fun same => out (List.mem_singleton.mpr same)

theorem writeBatchCost_pricesOnly {c : CostInput} (written : writeBatchCost tenantId c db = .ok u) :
    PricesOnly tenantId [c.sku1c] db u := by
  unfold writeBatchCost at written
  split at written
  · split at written
    · obtain ⟨_, -, written⟩ := bind_ok written
      obtain ⟨_, -, written⟩ := bind_ok written
      cases written
      exact upsertCostBatch_pricesOnly { tenantId := tenantId, sku1c := c.sku1c, cost := _ }
    · cases written
      exact .refl _ _ _
  · cases written
    exact .refl _ _ _

theorem writeSupplierCost_pricesOnly {c : CostInput}
    (written : writeSupplierCost pf tenantId c db = .ok u) :
    PricesOnly tenantId [c.sku1c] db u := by
  unfold writeSupplierCost at written
  split at written
  · split at written
    · obtain ⟨_, -, written⟩ := bind_ok written
      obtain ⟨_, -, written⟩ := bind_ok written
      obtain ⟨_, -, written⟩ := bind_ok written
      obtain ⟨_, -, written⟩ := bind_ok written
      obtain ⟨_, -, written⟩ := bind_ok written
      cases written
      exact upsertCostSupplier_pricesOnly {
        tenantId := tenantId
        sku1c := c.sku1c
        purchase := _
        purchaseSource := _
        purchaseSourceAt := _
        dealer := _ }
    · cases written
      exact .refl _ _ _
  · cases written
    exact .refl _ _ _

theorem writeCosts_pricesOnly {costs : List CostInput}
    (written : writeCosts pf tenantId costs db = .ok u) :
    PricesOnly tenantId (costs.map CostInput.sku1c) db u := by
  induction costs generalizing db with
  | nil =>
      cases written
      exact .refl _ _ _
  | cons c costs ih =>
      obtain ⟨mid, batch, written⟩ := bind_ok written
      obtain ⟨next, supplier, written⟩ := bind_ok written
      have head : [c.sku1c] ⊆ (c :: costs).map CostInput.sku1c := by simp
      have tail : costs.map CostInput.sku1c ⊆ (c :: costs).map CostInput.sku1c := by simp
      exact ((writeBatchCost_pricesOnly batch).mono head).trans
        (((writeSupplierCost_pricesOnly supplier).mono head).trans ((ih written).mono tail))

theorem writeWarehouses_frame (written : writeWarehouses tenantId req db = .ok u) :
    u.stocks = db.stocks ∧ u.snapshots = db.snapshots ∧ u.costBatch = db.costBatch ∧
      u.costSupplier = db.costSupplier ∧ u.products = db.products := by
  unfold writeWarehouses at written
  split at written
  · cases written
    exact ⟨rfl, rfl, rfl, rfl, rfl⟩
  · obtain ⟨rows, -, written⟩ := bind_ok written
    exact InventoryDb.upsertWarehouses_frame written

private theorem copyStock_value (s copy : StockInput) (copied : copyStock s = .ok copy) :
    copy = id s := by
  obtain ⟨_, -, copied⟩ := bind_ok copied
  obtain ⟨_, -, copied⟩ := bind_ok copied
  obtain ⟨_, -, copied⟩ := bind_ok copied
  cases copied
  rfl

private theorem insertedStock_value {measuredAt : Int} (s : StockInput) (row : StockRow)
    (inserted : insertedStock tenantId req measuredAt s = .ok row) :
    row = stockRow tenantId req measuredAt s := by
  obtain ⟨_, -, inserted⟩ := bind_ok inserted
  obtain ⟨_, -, inserted⟩ := bind_ok inserted
  cases inserted
  rfl

theorem writeStocks_rows (written : writeStocks pf tenantId req db = .ok u) :
    (∀ measuredAt, pf.timestamptz req.measuredAt = some measuredAt →
        u.stocks.rows = db.stocks.rows ++ req.stocks.map (stockRow tenantId req measuredAt)) ∧
      u.snapshots = db.snapshots ∧ u.costBatch = db.costBatch ∧
      u.costSupplier = db.costSupplier ∧ u.products = db.products := by
  unfold writeStocks at written
  split at written
  · rename_i none_given
    rw [List.isEmpty_iff] at none_given
    cases written
    simp [none_given]
  · obtain ⟨copies, copied, written⟩ := bind_ok written
    obtain ⟨read, parsed, written⟩ := bind_ok written
    obtain ⟨_, -, written⟩ := bind_ok written
    obtain ⟨rows, inserted, written⟩ := bind_ok written
    obtain ⟨-, stored, frame⟩ := InventoryDb.insertStocks_stored written
    refine ⟨?_, frame⟩
    intro measuredAt measured
    rw [Platform.readTimestamptz_ok measured] at parsed
    cases parsed
    rw [stored, mapM_eq_map insertedStock_value inserted, mapM_eq_map copyStock_value copied,
      List.map_id]

theorem writeSnapshot_frame {payloadHash : String}
    (written : writeSnapshot pf tenantId req payloadHash db = .ok u) :
    (pf.timestamptz req.measuredAt).isSome ∧ u.stocks = db.stocks ∧ u.costBatch = db.costBatch ∧
      u.costSupplier = db.costSupplier ∧ u.products = db.products := by
  obtain ⟨_, parsed, written⟩ := bind_ok written
  obtain ⟨_, -, written⟩ := bind_ok written
  obtain ⟨_, -, written⟩ := bind_ok written
  have valid := Platform.timestamptz_of_read parsed
  exact ⟨valid ▸ rfl, InventoryDb.insertSnapshot_frame written⟩

theorem importStatements_stocks {payloadHash : String}
    (done : importStatements pf tenantId req payloadHash db = .ok u) :
    ∃ measuredAt, pf.timestamptz req.measuredAt = some measuredAt ∧
      u.stocks.rows = db.stocks.rows ++ req.stocks.map (stockRow tenantId req measuredAt) := by
  obtain ⟨u₁, warehouses, done⟩ := bind_ok done
  obtain ⟨u₂, stocks, done⟩ := bind_ok done
  obtain ⟨u₃, costs, done⟩ := bind_ok done
  obtain ⟨valid, stocks₄, -⟩ := writeSnapshot_frame done
  obtain ⟨measuredAt, measured⟩ := Option.isSome_iff_exists.mp valid
  refine ⟨measuredAt, measured, ?_⟩
  rw [stocks₄, (writeCosts_pricesOnly costs).stocks, (writeStocks_rows stocks).1 _ measured,
    (writeWarehouses_frame warehouses).1]
  rfl

end Frames

section Histories

variable (pf : Platform) (tenantId : Int)

theorem stock_keys_importSnapshot (req : SnapshotRequest) (db : InventoryDb)
    (k : Int × String × String) :
    k ∈ (importSnapshot pf tenantId req db).db.stocks.keys ↔
      k ∈ db.stocks.keys ∨
        ((importSnapshot pf tenantId req db).result.value.map ImportResult.status =
            some .imported ∧
          ∃ s ∈ req.stocks, k = (tenantId, s.sku1c, s.warehouseId)) := by
  rcases importSnapshot_cases pf tenantId req db with ⟨same, other⟩ | ⟨u, done, after, value⟩
  · rw [same]
    simp [other]
  · obtain ⟨measuredAt, -, rows⟩ := importStatements_stocks done
    rw [after, value, Table.keys, rows, List.map_append, List.mem_append, List.map_map]
    simp only [Option.map_some, true_and, List.mem_map, Function.comp_apply]
    constructor
    · intro given
      rcases given with old | ⟨s, hs, rfl⟩
      · exact Or.inl (List.mem_map.mpr old)
      · exact Or.inr ⟨s, hs, rfl⟩
    · intro given
      rcases given with old | ⟨s, hs, rfl⟩
      · exact Or.inl (List.mem_map.mp old)
      · exact Or.inr ⟨s, hs, rfl⟩

/-- The stock keys present after a history are those of the requests it imported: no import ever
frees a key. -/
theorem stock_keys_importAll (history : List SnapshotRequest) (db : InventoryDb)
    (k : Int × String × String) :
    k ∈ (importAll pf tenantId history db).stocks.keys ↔
      k ∈ db.stocks.keys ∨ ∃ before req after, history = before ++ req :: after ∧
        (importSnapshot pf tenantId req (importAll pf tenantId before db)).result.value.map
            ImportResult.status = some .imported ∧
          ∃ s ∈ req.stocks, k = (tenantId, s.sku1c, s.warehouseId) := by
  induction history generalizing db with
  | nil => simp [importAll]
  | cons req history ih =>
      change k ∈ (importAll pf tenantId history (importSnapshot pf tenantId req db).db).stocks.keys
        ↔ _
      rw [ih, stock_keys_importSnapshot, or_assoc]
      apply or_congr_right
      constructor
      · intro given
        rcases given with now | ⟨before, later, after, split_at, rest⟩
        · exact ⟨[], req, history, rfl, now⟩
        · exact ⟨req :: before, later, after, by rw [split_at, List.cons_append], rest⟩
      · intro given
        obtain ⟨before, later, after, split_at, rest⟩ := given
        cases before with
        | nil =>
            cases split_at
            exact Or.inl rest
        | cons first before =>
            cases split_at
            exact Or.inr ⟨before, later, after, rfl, rest⟩

end Histories

end Scand.Inventory.ImportSnapshot
