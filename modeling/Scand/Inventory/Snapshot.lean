/- path: Scand/Inventory/Snapshot
   layer: code model
   digest: The snapshot request handed to the import, and the canonical JSON its hash is taken of. -/

import Scand.Foundation.JsonValue

set_option autoImplicit false
set_option relaxedAutoImplicit false

namespace Scand.Inventory.Snapshot

open Scand.Foundation.JsonValue (Json)

structure StockInput where
  sku1c : String
  offerId : Option String := none
  warehouseId : String
  warehouseName : Option String := none
  available : Int := 0
  reserved : Int := 0
  deriving DecidableEq

structure WarehouseInput where
  warehouseId : String
  warehouseName : String
  deriving DecidableEq

/-- One cost row of a request; amounts are exact rationals. -/
structure CostInput where
  sku1c : String
  batchAvgCost : Option ℚ := none
  purchaseCost : Option ℚ := none
  purchaseSource : Option String := none
  purchaseSourceAt : Option String := none
  dealerCost : Option ℚ := none
  deriving DecidableEq

structure SnapshotRequest where
  batchId : String
  measuredAt : String
  mode : String := "FULL"
  stocks : List StockInput := []
  warehouses : List WarehouseInput := []
  costs : List CostInput := []
  deriving DecidableEq

def StockInput.key (s : StockInput) : String × String := (s.sku1c, s.warehouseId)

def optStr : Option String → Json
  | some v => if v = "" then .null else .string v
  | none => .null

def optNum : Option ℚ → Json
  | some v => .double v
  | none => .null

/-- Sorting by a strict comparison of the source, as its negation read the other way round. -/
def sortBy {α : Type} (less : α → α → Bool) (l : List α) : List α :=
  l.mergeSort fun a b => !less b a

def stockLess (a b : StockInput) : Bool :=
  if a.sku1c ≠ b.sku1c then a.sku1c < b.sku1c else a.warehouseId < b.warehouseId

def stockJson (s : StockInput) : Json :=
  .object [("sku_1c", .string s.sku1c), ("offer_id", optStr s.offerId),
    ("warehouse_id", .string s.warehouseId), ("available", .int64 s.available),
    ("reserved", .int64 s.reserved)]

def costJson (c : CostInput) : Json :=
  .object [("sku_1c", .string c.sku1c), ("batch_avg_cost", optNum c.batchAvgCost),
    ("purchase_cost", optNum c.purchaseCost), ("purchase_source", optStr c.purchaseSource),
    ("purchase_source_at", optStr c.purchaseSourceAt), ("dealer_cost", optNum c.dealerCost)]

def warehouseJson (w : WarehouseInput) : Json :=
  .object [("warehouse_id", .string w.warehouseId), ("warehouse_name", .string w.warehouseName)]

/-- The value that is serialised and hashed: sorted arrays, and no warehouse name in the stocks. -/
def canonicalJson (req : SnapshotRequest) : Json :=
  .object [
    ("batch_id", .string req.batchId),
    ("measured_at", .string req.measuredAt),
    ("mode", .string req.mode),
    ("stocks", .array ((sortBy stockLess req.stocks).map stockJson)),
    ("warehouses", .array ((sortBy (fun a b => a.warehouseId < b.warehouseId)
      req.warehouses).map warehouseJson)),
    ("costs", .array ((sortBy (fun a b => a.sku1c < b.sku1c) req.costs).map costJson))]

end Scand.Inventory.Snapshot
