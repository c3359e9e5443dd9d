/- path: Scand/Inventory/Database
   layer: code model
   digest: The inventory tables of the SQL schema under their UNIQUE and FOREIGN KEY constraints,
   and the statements that import_snapshot sends to them. -/

import Scand.Foundation.JsonValue
import Scand.Foundation.KeyedTable

set_option autoImplicit false
set_option relaxedAutoImplicit false

namespace Scand.Inventory.Database

open Scand.Foundation.JsonValue (Json)
open Scand.Foundation.KeyedTable (SqlError Table)

structure SnapshotRow where
  tenantId : Int
  batchId : String
  payloadHash : String
  measuredAt : Int
  stocksCount : Nat
  costsCount : Nat
  deriving DecidableEq

/-- A row of `inventory1c_stocks`, without the warehouse name that 009_stocks_fk drops. -/
structure StockRow where
  tenantId : Int
  sku1c : String
  offerId : Option String
  warehouseId : String
  available : Int
  reserved : Int
  measuredAt : Int
  batchId : String
  onecCode : Option String := none
  deriving DecidableEq

structure WarehouseRow where
  tenantId : Int
  warehouseId : String
  warehouseName : String
  deriving DecidableEq

structure CostBatchRow where
  tenantId : Int
  sku1c : String
  cost : ℚ
  onecCode : Option String := none
  deriving DecidableEq

structure CostSupplierRow where
  tenantId : Int
  sku1c : String
  purchase : ℚ
  purchaseSource : String
  purchaseSourceAt : Int
  dealer : ℚ
  onecCode : Option String := none
  deriving DecidableEq

/-- A row of `inventory1c_products`; the order of the rows is the order of their ids. -/
structure CatalogRow where
  tenantId : Int
  code : String
  article : Option String
  name : Option String
  refKey : String
  measuredAt : Int
  deriving DecidableEq

abbrev SnapshotRow.key (r : SnapshotRow) : Int × String := (r.tenantId, r.batchId)
abbrev StockRow.key (r : StockRow) : Int × String × String := (r.tenantId, r.sku1c, r.warehouseId)
abbrev StockRow.warehouseKey (r : StockRow) : Int × String := (r.tenantId, r.warehouseId)
abbrev WarehouseRow.key (r : WarehouseRow) : Int × String := (r.tenantId, r.warehouseId)
abbrev CostBatchRow.key (r : CostBatchRow) : Int × String := (r.tenantId, r.sku1c)
abbrev CostSupplierRow.key (r : CostSupplierRow) : Int × String := (r.tenantId, r.sku1c)
abbrev CatalogRow.key (r : CatalogRow) : Int × String := (r.tenantId, r.code)
abbrev CatalogRow.refKeyOf (r : CatalogRow) : Int × String := (r.tenantId, r.refKey)

/-- The inventory part of the database. The constraints of the schema are fields, so a content that
breaks one of them cannot be written down. -/
@[ext] structure InventoryDb where
  snapshots : Table SnapshotRow SnapshotRow.key
  stocks : Table StockRow StockRow.key
  warehouses : Table WarehouseRow WarehouseRow.key
  costBatch : Table CostBatchRow CostBatchRow.key
  costSupplier : Table CostSupplierRow CostSupplierRow.key
  products : Table CatalogRow CatalogRow.key
  products_ref_unique : (products.rows.map CatalogRow.refKeyOf).Nodup
  stocks_fk : ∀ s ∈ stocks.rows, s.warehouseKey ∈ warehouses.keys

def InventoryDb.empty : InventoryDb where
  snapshots := .empty
  stocks := .empty
  warehouses := .empty
  costBatch := .empty
  costSupplier := .empty
  products := .empty
  products_ref_unique := List.nodup_nil
  stocks_fk := by simp

/-- What the import takes from its surroundings: how PostgreSQL reads a `timestamptz` text (an empty
text is never one), how it words an error, and the hex digest of a serialised value. -/
structure Platform where
  timestamptz : String → Option Int
  timestamptz_empty : timestamptz "" = none
  what : SqlError → String
  sha256Hex : Json → String
  sha256Hex_length : ∀ j, (sha256Hex j).length = 64

def Platform.readTimestamptz (pf : Platform) (text : String) : Except SqlError Int :=
  match pf.timestamptz text with
  | some at_ => .ok at_
  | none => .error .invalidDatetimeFormat

theorem Platform.readTimestamptz_ok {pf : Platform} {text : String} {t : Int}
    (h : pf.timestamptz text = some t) : pf.readTimestamptz text = .ok t := by
  rw [Platform.readTimestamptz, h]

theorem Platform.timestamptz_of_read {pf : Platform} {text : String} {t : Int}
    (h : pf.readTimestamptz text = .ok t) : pf.timestamptz text = some t := by
  unfold Platform.readTimestamptz at h
  split at h
  · cases h
    assumption
  · cases h

namespace InventoryDb

def deleteCosts (db : InventoryDb) (tenantId : Int) : InventoryDb :=
  { db with
    costBatch := db.costBatch.delete fun r => r.tenantId = tenantId
    costSupplier := db.costSupplier.delete fun r => r.tenantId = tenantId }

/-- `INSERT INTO inventory1c_warehouses ... ON CONFLICT DO UPDATE SET warehouse_name`. -/
def upsertWarehouses (db : InventoryDb) (rows : List WarehouseRow) : Except SqlError InventoryDb :=
  match h : db.warehouses.upsertAll (fun old new => { old with warehouseName := new.warehouseName })
      (fun _ _ => rfl) rows with
  | .error e => .error e
  | .ok u => .ok { db with
      warehouses := u
      stocks_fk := fun s hs =>
        (Table.upsertAll_keys h s.warehouseKey).mpr (Or.inl (db.stocks_fk s hs)) }

/-- `INSERT INTO inventory1c_stocks ... SELECT`: no conflict clause, and every row must name a known
warehouse of its tenant. -/
def insertStocks (db : InventoryDb) (rows : List StockRow) : Except SqlError InventoryDb :=
  match db.stocks.insertAll rows with
  | .error e => .error e
  | .ok t =>
      if fk : ∀ s ∈ t.rows, s.warehouseKey ∈ db.warehouses.keys then
        .ok { db with stocks := t, stocks_fk := fk }
      else .error .foreignKeyViolation

def upsertCostBatch (db : InventoryDb) (row : CostBatchRow) : InventoryDb :=
  { db with
    costBatch := db.costBatch.upsert (fun old new => { old with cost := new.cost })
      (fun _ _ => rfl) row }

/-- `INSERT INTO pricing_cost_supplier ... ON CONFLICT DO UPDATE SET` every priced column. -/
def upsertCostSupplier (db : InventoryDb) (row : CostSupplierRow) : InventoryDb :=
  { db with
    costSupplier := db.costSupplier.upsert
      (fun old new => { old with
        purchase := new.purchase
        purchaseSource := new.purchaseSource
        purchaseSourceAt := new.purchaseSourceAt
        dealer := new.dealer })
      (fun _ _ => rfl) row }

def insertSnapshot (db : InventoryDb) (row : SnapshotRow) : Except SqlError InventoryDb :=
  match db.snapshots.insert row with
  | .error e => .error e
  | .ok t => .ok { db with snapshots := t }

theorem upsertCostBatch_here (db : InventoryDb) (row : CostBatchRow) :
    ∃ r ∈ (db.upsertCostBatch row).costBatch.rows, r.key = row.key ∧ r.cost = row.cost := by
  have here : ∃ r ∈ (db.upsertCostBatch row).costBatch.rows, r.key = row.key ∧
      (r = row ∨ ∃ old : CostBatchRow, r = { old with cost := row.cost }) :=
    Table.mem_upsert_here db.costBatch row
  obtain ⟨r, mem, key, same⟩ := here
  refine ⟨r, mem, key, ?_⟩
  rcases same with rfl | ⟨old, rfl⟩
  · rfl
  · rfl

theorem upsertCostSupplier_here (db : InventoryDb) (row : CostSupplierRow) :
    ∃ r ∈ (db.upsertCostSupplier row).costSupplier.rows,
      r.key = row.key ∧ r.purchase = row.purchase ∧ r.dealer = row.dealer := by
  have here : ∃ r ∈ (db.upsertCostSupplier row).costSupplier.rows, r.key = row.key ∧
      (r = row ∨ ∃ old : CostSupplierRow, r = { old with
        purchase := row.purchase
        purchaseSource := row.purchaseSource
        purchaseSourceAt := row.purchaseSourceAt
        dealer := row.dealer }) := Table.mem_upsert_here db.costSupplier row
  obtain ⟨r, mem, key, same⟩ := here
  refine ⟨r, mem, key, ?_⟩
  rcases same with rfl | ⟨old, rfl⟩
  · exact ⟨rfl, rfl⟩
  · exact ⟨rfl, rfl⟩

theorem upsertWarehouses_ok (db : InventoryDb) {rows : List WarehouseRow}
    (distinct : (rows.map WarehouseRow.key).Nodup) :
    ∃ u, db.upsertWarehouses rows = .ok u ∧ u.stocks = db.stocks ∧ u.snapshots = db.snapshots ∧
      ∀ k, k ∈ u.warehouses.keys ↔ k ∈ db.warehouses.keys ∨ k ∈ rows.map WarehouseRow.key := by
  obtain ⟨t, stored, keys⟩ := db.warehouses.upsertAll_ok
    (fun old new => { old with warehouseName := new.warehouseName }) (fun _ _ => rfl) distinct
  unfold upsertWarehouses
  split
  · rename_i e failed
    rw [stored] at failed
    cases failed
  · rename_i u upserted
    rw [stored] at upserted
    cases upserted
    exact ⟨_, rfl, rfl, rfl, keys⟩

theorem upsertWarehouses_frame {db u : InventoryDb} {rows : List WarehouseRow}
    (h : db.upsertWarehouses rows = .ok u) :
    u.stocks = db.stocks ∧ u.snapshots = db.snapshots ∧ u.costBatch = db.costBatch ∧
      u.costSupplier = db.costSupplier ∧ u.products = db.products := by
  unfold upsertWarehouses at h
  split at h
  · cases h
  · cases h
    exact ⟨rfl, rfl, rfl, rfl, rfl⟩

theorem insertStocks_ok {db : InventoryDb} {rows : List StockRow}
    (fresh : ∀ r ∈ rows, r.key ∉ db.stocks.keys) (distinct : (rows.map StockRow.key).Nodup)
    (listed : ∀ r ∈ rows, r.warehouseKey ∈ db.warehouses.keys) :
    ∃ u, db.insertStocks rows = .ok u ∧ u.stocks.rows = db.stocks.rows ++ rows ∧
      u.snapshots = db.snapshots := by
  obtain ⟨t, stored, all⟩ := Table.insertAll_ok fresh distinct
  have fk : ∀ s ∈ t.rows, s.warehouseKey ∈ db.warehouses.keys := by
    intro s hs
    rw [all, List.mem_append] at hs
    rcases hs with old | new
    · exact db.stocks_fk s old
    · exact listed s new
  refine ⟨{ db with stocks := t, stocks_fk := fk }, ?_, all, rfl⟩
  unfold insertStocks
  simp only [stored, dif_pos fk]

theorem insertStocks_stored {db u : InventoryDb} {rows : List StockRow}
    (h : db.insertStocks rows = .ok u) :
    (∀ r ∈ rows, r.key ∉ db.stocks.keys) ∧ u.stocks.rows = db.stocks.rows ++ rows ∧
      u.snapshots = db.snapshots ∧ u.costBatch = db.costBatch ∧
      u.costSupplier = db.costSupplier ∧ u.products = db.products := by
  unfold insertStocks at h
  split at h
  · cases h
  · rename_i t stored
    split at h
    · cases h
      obtain ⟨fresh, all⟩ := Table.insertAll_rows stored
      exact ⟨fresh, all, rfl, rfl, rfl, rfl⟩
    · cases h

theorem insertSnapshot_ok (db : InventoryDb) (row : SnapshotRow)
    (fresh : row.key ∉ db.snapshots.keys) :
    ∃ u, db.insertSnapshot row = .ok u ∧ u.stocks = db.stocks := by
  obtain ⟨t, stored, -⟩ := Table.insert_ok fresh
  refine ⟨{ db with snapshots := t }, ?_, rfl⟩
  unfold insertSnapshot
  rw [stored]

theorem insertSnapshot_frame {db u : InventoryDb} {row : SnapshotRow}
    (h : db.insertSnapshot row = .ok u) :
    u.stocks = db.stocks ∧ u.costBatch = db.costBatch ∧ u.costSupplier = db.costSupplier ∧
      u.products = db.products := by
  unfold insertSnapshot at h
  split at h
  · cases h
  · cases h
    exact ⟨rfl, rfl, rfl, rfl⟩

end InventoryDb

end Scand.Inventory.Database
