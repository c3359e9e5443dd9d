/- path: Scand/Inventory/Endpoints
   layer: code model and its results
   digest: The two requests that pull selected products and import the result, and what such an import
   does to the stored prices. -/

import Scand.Inventory.NextImport
import Scand.Inventory.PullToSnapshot

set_option autoImplicit false
set_option relaxedAutoImplicit false

namespace Scand.Inventory.Endpoints

open Scand.Foundation.JsonValue (stoll)
open Scand.Foundation.KeyedTable
open Scand.Inventory.Database
open Scand.Inventory.Snapshot
open Scand.Inventory.ImportSnapshot
open Scand.Inventory.PullToSnapshot
open Scand.Ka2.Pull (PullResult)

structure InventoryQuery where
  limit : String := ""
  offer : String := ""
  refKey : String := ""
  period : String := ""

/-- The surroundings of one request: the platform, the clock, what the pull of a list of products
turns out to return or throw, the enabled warehouses and the order of the hash maps. -/
structure Surroundings where
  platform : Platform
  now : String
  pull : List String → String → Except String PullResult
  allowedWarehouses : List String
  order : HashOrder

def selectProducts (db : InventoryDb) (q : InventoryQuery) (limit : Option Nat) :
    List CatalogRow :=
  let catalog := db.products.rows.filter fun p => p.tenantId = 1
  if q.refKey ≠ "" then catalog.filter fun p => p.refKey = q.refKey
  else if q.offer ≠ "" then catalog.filter fun p => p.article = some q.offer
  else match limit with
    | some n => catalog.take n
    | none => catalog

def offerByRef (selected : List CatalogRow) (refKey : String) : Option String :=
  ((selected.filter fun p => p.article.getD "" ≠ "").reverse.find? fun p => p.refKey = refKey).bind
    CatalogRow.article

def snapshotOf (env : Surroundings) (q : InventoryQuery) (selected : List CatalogRow)
    (noneSelected : String) : Except String SnapshotRequest :=
  if selected.isEmpty then .error noneSelected
  else do
    let period := if q.period ≠ "" then q.period else env.now
    let pull ← env.pull (selected.map CatalogRow.refKey) period
    return pullToSnapshot pull (offerByRef selected) env.allowedWarehouses env.order period false

/-- The snapshot of `POST /api/inventory/ka2/save`: only a positive limit counts. -/
def ka2SaveSnapshot (env : Surroundings) (q : InventoryQuery) (db : InventoryDb) :
    Except String SnapshotRequest :=
  let limit := (stoll q.limit).filter (· > 0)
  snapshotOf env q (selectProducts db q (limit.map Int.toNat))
    "inventory1c_products is empty, run /api/onec/product-catalog/pull first"

/-- The snapshot of a worker of `POST /api/1c/inventory-pulls`: every number goes into the statement,
which refuses a negative one. -/
def inventoryPullSnapshot (env : Surroundings) (q : InventoryQuery) (db : InventoryDb) :
    Except String SnapshotRequest :=
  match stoll q.limit with
  | some n =>
      if q.refKey = "" ∧ q.offer = "" ∧ n < 0 then .error "LIMIT must not be negative"
      else snapshotOf env q (selectProducts db q (some n.toNat)) "inventory1c_products is empty"
  | none => snapshotOf env q (selectProducts db q none) "inventory1c_products is empty"

inductive Endpoint
  | ka2Save | inventoryPulls
  deriving DecidableEq

def Endpoint.snapshot : Endpoint → Surroundings → InventoryQuery → InventoryDb →
    Except String SnapshotRequest
  | .ka2Save => ka2SaveSnapshot
  | .inventoryPulls => inventoryPullSnapshot

section Sample

open Scand.Inventory.NextImport (samplePlatform)

def otherPrice : CostBatchRow where
  tenantId := 1
  sku1c := "sku-2"
  cost := 10

def pricedDb : InventoryDb := { InventoryDb.empty with
  products := {
    rows := [
      { tenantId := 1, code := "0001", article := none, name := none, refKey := "sku-1",
        measuredAt := 0 },
      { tenantId := 1, code := "0002", article := none, name := none, refKey := "sku-2",
        measuredAt := 0 }]
    unique := by decide }
  products_ref_unique := by decide
  costBatch := { rows := [otherPrice], unique := by decide } }

def sampleQuery : InventoryQuery where
  refKey := "sku-1"

end Sample

end Scand.Inventory.Endpoints
