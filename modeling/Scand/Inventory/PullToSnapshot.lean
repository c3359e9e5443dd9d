/- path: Scand/Inventory/PullToSnapshot
   layer: code model and its results
   digest: pull_to_snapshot, and when every stock row of the snapshot names a warehouse it lists. -/

import Scand.Foundation.Accumulate
import Scand.Inventory.Snapshot
import Scand.Ka2.Pull

set_option autoImplicit false
set_option relaxedAutoImplicit false

namespace Scand.Inventory.PullToSnapshot

open Scand.Foundation.Accumulate
open Scand.Inventory.Snapshot
open Scand.Ka2.Pull

/-- The order in which the two hash maps are walked. -/
structure HashOrder where
  stocks : List (String × StockInput) → List (String × StockInput)
  stocks_perm : ∀ entries, (stocks entries).Perm entries
  skus : List (String × ℚ × ℚ) → List (String × ℚ × ℚ)
  skus_perm : ∀ entries, (skus entries).Perm entries

def isAllowed (allowedWarehouses : List String) (id : String) : Bool :=
  allowedWarehouses.isEmpty || allowedWarehouses.contains id

/-- `static_cast<long long>` of a quantity: towards zero, and -2^63 where 64 bits do not hold the
result, as the instruction of x86-64 has it. -/
def truncate (q : ℚ) : Int :=
  let whole := q.num.tdiv q.den
  if -2 ^ 63 ≤ whole ∧ whole < 2 ^ 63 then whole else -2 ^ 63

/-- A `long long` after an addition. -/
def toInt64 (i : Int) : Int := Int.bmod i (2 ^ 64)

def batchId (isPreview : Bool) (period : String) : String :=
  String.ofList (((if isPreview then "preview-" else "odata-") ++ period).toList.map
    fun c => if c = ':' then '-' else c)

section Build

variable (pull : PullResult) (offerByRef : String → Option String)
  (allowedWarehouses : List String)

def snapshotWarehouses : List WarehouseInput :=
  (pull.warehouses.filter fun w => w.refKey ≠ "" ∧ isAllowed allowedWarehouses w.refKey).map
    fun w => { warehouseId := w.refKey, warehouseName := w.description }

def eligible (s : StockBalance) : Bool :=
  s.nomenclatureKey ≠ "" ∧ isAllowed allowedWarehouses s.warehouseKey

def stockKey (s : StockBalance) : String := s.nomenclatureKey ++ "|" ++ s.warehouseKey

/-- A new accumulator: the first row under a key gives it everything but the quantity. -/
def freshStock (s : StockBalance) : StockInput where
  sku1c := s.nomenclatureKey
  offerId := (offerByRef s.nomenclatureKey).filter (· ≠ "")
  warehouseId := s.warehouseKey
  warehouseName := (pull.warehouses.find? fun w => w.refKey = s.warehouseKey).map
    Warehouse.description

def addStock (s : StockBalance) (acc : StockInput) : StockInput :=
  { acc with available := toInt64 (acc.available + truncate s.quantity) }

def byKey : List (String × StockInput) :=
  accumulate stockKey (freshStock pull offerByRef) addStock
    (pull.stocks.filter (eligible allowedWarehouses)) []

/-- The product of an analytic key; of several rows the last one counts. -/
def analitToNom (analyticKey : String) : Option String :=
  ((pull.analytics.filter fun a => a.refKey ≠ "" ∧ a.nomenclatureKey ≠ "").reverse.find?
    fun a => a.refKey = analyticKey).map AnalyticKey.nomenclatureKey

def bySku : List (String × ℚ × ℚ) :=
  accumulate Prod.fst (fun _ => (0, 0))
    (fun (row : String × CostBalance) (acc : ℚ × ℚ) =>
      (acc.1 + row.2.cost, acc.2 + row.2.quantity))
    (pull.costs.filterMap fun c => (analitToNom pull c.analyticKey).map fun sku => (sku, c)) []

def minPurchase (sku : String) : ℚ × String :=
  pull.suppliers.foldl
    (fun best sp =>
      if sp.nomenclatureKey ≠ sku then best
      else if sp.price ≤ 0 then best
      else if best.1 = 0 ∨ sp.price < best.1 then (sp.price, sp.period)
      else best)
    (0, "")

def costInput (entry : String × ℚ × ℚ) : Option CostInput :=
  let (sku, totalCost, totalQty) := entry
  let purchase := minPurchase pull sku
  let c : CostInput := {
    sku1c := sku
    batchAvgCost := if totalQty > 0 ∧ totalCost > 0 then some (totalCost / totalQty) else none
    purchaseCost := if purchase.1 > 0 then some purchase.1 else none
    purchaseSource := if purchase.1 > 0 then some "supplier_register" else none
    purchaseSourceAt := if purchase.1 > 0 then some purchase.2 else none }
  if c.batchAvgCost.isSome || c.purchaseCost.isSome || c.dealerCost.isSome then some c else none

def pullToSnapshot (order : HashOrder) (period : String) (isPreview : Bool) : SnapshotRequest where
  batchId := batchId isPreview period
  measuredAt := period ++ "Z"
  mode := "FULL"
  warehouses := snapshotWarehouses pull allowedWarehouses
  stocks := (order.stocks (byKey pull offerByRef allowedWarehouses)).map Prod.snd
  costs := (order.skus (bySku pull)).filterMap (costInput pull)

end Build

def creating (pull : PullResult) (allowedWarehouses : List String) : List StockBalance :=
  firsts stockKey (pull.stocks.filter (eligible allowedWarehouses)) []

/-- The foreign key of the stocks, as far as the request itself can satisfy it. -/
def ListsItsWarehouses (req : SnapshotRequest) : Prop :=
  ∀ s ∈ req.stocks, s.warehouseId ∈ req.warehouses.map WarehouseInput.warehouseId

section Warehouses

variable (pull : PullResult) (offerByRef : String → Option String)
  (allowedWarehouses : List String) (order : HashOrder) (period : String) (isPreview : Bool)

theorem mem_stock_warehouses (id : String) :
    (∃ s ∈ (pullToSnapshot pull offerByRef allowedWarehouses order period isPreview).stocks,
      s.warehouseId = id) ↔
      ∃ s ∈ creating pull allowedWarehouses, s.warehouseKey = id := by
  have ids : (byKey pull offerByRef allowedWarehouses).map (fun entry => entry.2.warehouseId) =
      (creating pull allowedWarehouses).map StockBalance.warehouseKey :=
    accumulate_map (by intro _ _ _; rfl) (pull.stocks.filter (eligible allowedWarehouses)) []
  have same : ∀ id, id ∈ (byKey pull offerByRef allowedWarehouses).map
      (fun entry => entry.2.warehouseId) ↔
      id ∈ (creating pull allowedWarehouses).map StockBalance.warehouseKey := by
    intro id
    rw [ids]
  have here := same id
  simp only [List.mem_map] at here
  rw [← here]
  simp only [pullToSnapshot, List.mem_map]
  constructor
  · intro given
    obtain ⟨s, ⟨entry, mem, rfl⟩, equal⟩ := given
    exact ⟨entry, (order.stocks_perm _).mem_iff.mp mem, equal⟩
  · intro given
    obtain ⟨entry, mem, equal⟩ := given
    exact ⟨entry.2, ⟨entry, (order.stocks_perm _).mem_iff.mpr mem, rfl⟩, equal⟩

theorem mem_snapshotWarehouses (id : String) :
    id ∈ (snapshotWarehouses pull allowedWarehouses).map WarehouseInput.warehouseId ↔
      id ≠ "" ∧ isAllowed allowedWarehouses id = true ∧
        id ∈ pull.warehouses.map Warehouse.refKey := by
  simp only [snapshotWarehouses, List.map_map, List.mem_map, List.mem_filter, decide_eq_true_eq,
    Function.comp_apply]
  constructor
  · intro given
    obtain ⟨w, ⟨mem, nonempty, allowed⟩, rfl⟩ := given
    exact ⟨nonempty, allowed, w, mem, rfl⟩
  · intro given
    obtain ⟨nonempty, allowed, w, mem, rfl⟩ := given
    exact ⟨w, ⟨mem, nonempty, allowed⟩, rfl⟩

/-- The snapshot lists the warehouse of each of its stock rows exactly when every balance row that
creates one names a warehouse which the warehouse read returned. -/
theorem pull_to_snapshot_listed_iff :
    ListsItsWarehouses
        (pullToSnapshot pull offerByRef allowedWarehouses order period isPreview) ↔
      ∀ s ∈ creating pull allowedWarehouses,
        s.warehouseKey ≠ "" ∧ s.warehouseKey ∈ pull.warehouses.map Warehouse.refKey := by
  have listed : ∀ id, id ∈ (pullToSnapshot pull offerByRef allowedWarehouses order period
      isPreview).warehouses.map WarehouseInput.warehouseId ↔ _ :=
    mem_snapshotWarehouses pull allowedWarehouses
  have created := mem_stock_warehouses pull offerByRef allowedWarehouses order period isPreview
  constructor
  · intro all s mem
    obtain ⟨stock, stock_mem, same⟩ := (created s.warehouseKey).mpr ⟨s, mem, rfl⟩
    obtain ⟨nonempty, -, known⟩ := (listed _).mp (all stock stock_mem)
    rw [same] at nonempty known
    exact ⟨nonempty, known⟩
  · intro all stock stock_mem
    obtain ⟨s, mem, same⟩ := (created stock.warehouseId).mp ⟨stock, stock_mem, rfl⟩
    obtain ⟨nonempty, known⟩ := all s mem
    have taken := (List.mem_filter.mp (mem_of_mem_firsts mem)).2
    simp only [eligible, decide_eq_true_eq] at taken
    rw [listed, ← same]
    exact ⟨nonempty, taken.2, known⟩

end Warehouses

section Sample

open Scand.Foundation.JsonValue (Json)
open Scand.Foundation.Outcomes (Run)
open Scand.Ka2.Reader (Server readChunkedParallel exists_readChunkedParallel)
open Scand.Ka2.Balance (pageOf mem_readBalanceChunked processChunk)

def deletedWarehouse : Server := fun site _ _ => {
  statusCode := 200
  body := .ok (pageOf (match site.source with
    | .warehouses => [[("Ref_Key", .string "wh-1"), ("Description", .string "Old"),
        ("DeletionMark", .bool true), ("IsFolder", .bool false)]]
    | .stocks => [[("Номенклатура_Key", .string "p-1"), ("Склад_Key", .string "wh-1"),
        ("ВНаличииBalance", .int64 5), ("КОтгрузкеBalance", .int64 0)]]
    | _ => [])) }

private theorem deleted_finishes :
    ∃ result caught, pull {} deletedWarehouse 1 ["p-1"] "2026-09-23T00:00:00"
        (.ok (result, caught)) ∧ result.warehouses = [] := by
  have flat : ∀ q, q = analyticsQuery ∨ q = suppliersQuery →
      ∃ rows caught, readChunkedParallel {} deletedWarehouse 1 q ["p-1"] (.ok (rows, caught)) := by
    rintro q (rfl | rfl)
    · exact exists_readChunkedParallel (fun _ => {}) fun _ _ => rfl
    · exact exists_readChunkedParallel (fun _ => {}) fun _ _ => rfl
  obtain ⟨result, rest, finished, none_left⟩ := exists_pull "2026-09-23T00:00:00" []
    ⟨_, rfl, rfl⟩ (flat _ (Or.inl rfl)) (flat _ (Or.inr rfl))
  exact ⟨result, _, finished, none_left⟩

def walkAsStored : HashOrder where
  stocks entries := entries
  stocks_perm _ := .refl _
  skus entries := entries
  skus_perm _ := .refl _

private theorem deleted_stock {result : PullResult} {caught : List String}
    (finished : pull {} deletedWarehouse 1 ["p-1"] "2026-09-23T00:00:00" (.ok (result, caught))) :
    ∃ s ∈ result.stocks, eligible [] s = true := by
  obtain ⟨_, _, _, _, _, -, -, -, read, -, -⟩ := pull_ok finished
  obtain ⟨rows, _, _, read, same, -⟩ := Run.bind_ok.mp read
  obtain ⟨stocks_eq, -⟩ := Run.pure_ok.mp same
  have row : [("Номенклатура_Key", Json.string "p-1"), ("Склад_Key", .string "wh-1"),
      ("ВНаличииBalance", .int64 5), ("КОтгрузкеBalance", .int64 0)] ∈ rows := by
    refine (mem_readBalanceChunked read _).mpr ⟨(["p-1"], 0), by decide, ?_⟩
    rw [processChunk]
    exact List.mem_singleton_self _
  rw [stocks_eq]
  exact ⟨_, List.mem_filterMap.mpr ⟨_, row, rfl⟩, rfl⟩

/-- The pull finishes, and its snapshot has a stock row whose warehouse it does not list. -/
theorem deleted_warehouse_unlisted :
    ∃ result caught, pull {} deletedWarehouse 1 ["p-1"] "2026-09-23T00:00:00"
        (.ok (result, caught)) ∧
      ¬ ListsItsWarehouses (pullToSnapshot result (fun _ => none) [] walkAsStored
        "2026-09-23T00:00:00" false) := by
  obtain ⟨result, caught, finished, none_left⟩ := deleted_finishes
  refine ⟨result, caught, finished, fun all => ?_⟩
  obtain ⟨s, mem, taken⟩ := deleted_stock finished
  obtain ⟨first, first_mem⟩ := exists_mem_firsts stockKey
    (List.ne_nil_of_mem (List.mem_filter.mpr ⟨mem, taken⟩))
  obtain ⟨stock, stock_mem, -⟩ := (mem_stock_warehouses result (fun _ => none) [] walkAsStored
    "2026-09-23T00:00:00" false first.warehouseKey).mpr ⟨first, first_mem, rfl⟩
  have listed := all stock stock_mem
  simp only [pullToSnapshot, snapshotWarehouses, none_left] at listed
  cases listed

end Sample

end Scand.Inventory.PullToSnapshot
