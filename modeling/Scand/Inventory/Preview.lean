/- path: Scand/Inventory/Preview
   layer: code model and its results
   digest: build_preview with the choice of a unit cost, and which of the chosen costs an import of the
   same request stores. -/

import Scand.Inventory.NextImport

set_option autoImplicit false
set_option relaxedAutoImplicit false

namespace Scand.Inventory.Preview

open Scand.Foundation.KeyedTable
open Scand.Inventory.Database
open Scand.Inventory.Snapshot
open Scand.Inventory.ImportSnapshot

inductive CostSource
  | batch | purchase | dealer
  deriving DecidableEq

def CostSource.text : CostSource → String
  | .batch => "batch"
  | .purchase => "purchase"
  | .dealer => "dealer"

def positive (cost : Option ℚ) : Bool := cost.any fun v => 0 < v

/-- `select_unit_cost`: batch before purchase before dealer; none where no cost is positive. -/
def selectUnitCost (row : CostInput) : Option (ℚ × CostSource) :=
  if positive row.batchAvgCost then row.batchAvgCost.map (·, .batch)
  else if positive row.purchaseCost then row.purchaseCost.map (·, .purchase)
  else if positive row.dealerCost then row.dealerCost.map (·, .dealer)
  else none

structure CostPreview where
  sku1c : String
  selectedCost : ℚ
  costSource : String
  deriving DecidableEq

structure SnapshotPreview where
  status : String := "valid"
  batchId : String
  stockRows : Nat
  costRows : Nat
  skuCount : Nat
  warehouseCount : Nat
  costPreview : List CostPreview
  warnings : List String
  deriving DecidableEq

section Warnings

def emptyWarning : String := "Снимок пуст: нет ни остатков, ни себестоимости"

def offerWarning (n : Nat) : String := "Не заполнен offer_id у " ++ toString n ++ " SKU"

def stocksWithoutCostWarning (n : Nat) : String :=
  "Нет себестоимости для " ++ toString n ++ " SKU с остатками"

def costsWithoutStockWarning (n : Nat) : String :=
  "Есть себестоимость для " ++ toString n ++ " SKU без остатков"

def notSelectedWarning (sku : String) : String := "SKU " ++ sku ++ ": себестоимость не выбрана"

def limitWarning (limit : Nat) : String :=
  "Предпросмотр себестоимости ограничен " ++ toString limit ++ " строками"

def countDistinct (texts : List String) : Nat := texts.dedup.length

def warnOf (text : Nat → String) (n : Nat) : List String := if n = 0 then [] else [text n]

def requestWarnings (req : SnapshotRequest) : List String :=
  let stockSkus := req.stocks.map StockInput.sku1c
  let costSkus := req.costs.map CostInput.sku1c
  let unnamed := (req.stocks.filter fun s => s.offerId.getD "" = "").map StockInput.sku1c
  (if req.stocks.isEmpty && req.costs.isEmpty then [emptyWarning] else []) ++
    warnOf offerWarning (countDistinct unnamed) ++
    warnOf stocksWithoutCostWarning (countDistinct (stockSkus.filter (· ∉ costSkus))) ++
    warnOf costsWithoutStockWarning (countDistinct (costSkus.filter (· ∉ stockSkus)))

end Warnings

def costPreview (row : CostInput) : Option CostPreview :=
  (selectUnitCost row).map fun (value, source) => {
    sku1c := row.sku1c, selectedCost := value, costSource := source.text }

/-- `build_preview`; a preview limit of 0 stands for 100. -/
def buildPreview (req : SnapshotRequest) (previewLimit : Nat) (extraWarnings : List String) :
    SnapshotPreview :=
  let limit := if previewLimit = 0 then 100 else previewLimit
  let shown := (sortBy (fun a b => a.sku1c < b.sku1c) req.costs).take limit
  let stockSkus := req.stocks.map StockInput.sku1c
  { batchId := req.batchId
    stockRows := req.stocks.length
    costRows := req.costs.length
    skuCount := countDistinct (stockSkus ++ req.costs.map CostInput.sku1c)
    warehouseCount := countDistinct
      (req.stocks.map StockInput.warehouseId ++ req.warehouses.map WarehouseInput.warehouseId)
    costPreview := shown.filterMap costPreview
    warnings := extraWarnings ++ requestWarnings req ++
      (shown.filter fun row => selectUnitCost row = none).map
        (fun row => notSelectedWarning row.sku1c) ++
      if req.costs.length > limit then [limitWarning limit] else [] }

/-- A cost is in the column of its source, as that column rounds it. -/
def Holds (db : InventoryDb) (tenantId : Int) (sku1c : String) : CostSource → ℚ → Prop
  | .batch, v => ∃ row ∈ db.costBatch.rows, row.key = (tenantId, sku1c) ∧ row.cost = roundTo 4 v
  | .purchase, v =>
      ∃ row ∈ db.costSupplier.rows, row.key = (tenantId, sku1c) ∧ row.purchase = roundTo 4 v
  | .dealer, v =>
      ∃ row ∈ db.costSupplier.rows, row.key = (tenantId, sku1c) ∧ row.dealer = roundTo 4 v

def costOf (row : CostInput) : CostSource → Option ℚ
  | .batch => row.batchAvgCost
  | .purchase => row.purchaseCost
  | .dealer => row.dealerCost

section Choice

variable {row : CostInput} {v : ℚ} {source : CostSource}

theorem positive_iff {cost : Option ℚ} : positive cost = true ↔ ∃ v, cost = some v ∧ 0 < v := by
  cases cost <;> simp [positive]

theorem positive_some : positive (some v) = true ↔ 0 < v := by simp [positive]

theorem costOf_of_selected (selected : selectUnitCost row = some (v, source)) :
    costOf row source = some v ∧ 0 < v := by
  unfold selectUnitCost at selected
  have stated : ∀ (cost : Option ℚ) (s : CostSource), positive cost = true →
      cost.map (fun x => (x, s)) = some (v, source) → s = source ∧ cost = some v ∧ 0 < v := by
    intro cost s above same
    obtain ⟨x, given, greater⟩ := positive_iff.mp above
    rw [given, Option.map_some, Option.some.injEq, Prod.mk.injEq] at same
    obtain ⟨rfl, rfl⟩ := same
    exact ⟨rfl, given, greater⟩
  split at selected
  · rename_i batch
    obtain ⟨rfl, given⟩ := stated _ _ batch selected
    exact given
  · split at selected
    · rename_i purchase
      obtain ⟨rfl, given⟩ := stated _ _ purchase selected
      exact given
    · split at selected
      · rename_i dealer
        obtain ⟨rfl, given⟩ := stated _ _ dealer selected
        exact given
      · cases selected

theorem selectUnitCost_dealer_iff :
    selectUnitCost row = some (v, .dealer) ↔ positive row.batchAvgCost = false ∧
      positive row.purchaseCost = false ∧ row.dealerCost = some v ∧ 0 < v := by
  unfold selectUnitCost
  cases batch : positive row.batchAvgCost with
  | true => cases row.batchAvgCost <;> simp
  | false =>
      cases purchase : positive row.purchaseCost with
      | true => cases row.purchaseCost <;> simp
      | false =>
          cases dealer : row.dealerCost with
          | none => simp [positive]
          | some w =>
              by_cases above : 0 < w
              · have chosen : positive (some w) = true := positive_some.mpr above
                simp only [Bool.false_eq_true, if_false, chosen, if_true, Option.map_some,
                  Option.some.injEq, Prod.mk.injEq, and_true, true_and]
                constructor
                · rintro rfl
                  exact ⟨rfl, above⟩
                · exact And.left
              · have refused : positive (some w) = false := by simpa [positive] using above
                simp only [Bool.false_eq_true, if_false, refused, Option.some.injEq, true_and,
                  reduceCtorEq, false_iff, not_and]
                rintro rfl
                exact above

theorem selected_of_shown {req : SnapshotRequest} {previewLimit : Nat} {extra : List String}
    {shown : CostPreview} (mem : shown ∈ (buildPreview req previewLimit extra).costPreview) :
    ∃ c ∈ req.costs, ∃ v source, selectUnitCost c = some (v, source) ∧
      shown = { sku1c := c.sku1c, selectedCost := v, costSource := source.text } := by
  obtain ⟨c, taken, chosen⟩ := List.mem_filterMap.mp mem
  obtain ⟨⟨v, source⟩, selected, same⟩ := Option.map_eq_some_iff.mp chosen
  have sorted : c ∈ sortBy (fun a b => a.sku1c < b.sku1c) req.costs := List.mem_of_mem_take taken
  have given : c ∈ req.costs := (List.mergeSort_perm _ _).mem_iff.mp sorted
  exact ⟨c, given, v, source, selected, same.symm⟩

end Choice

section Import

variable {pf : Platform} {tenantId : Int} {c : CostInput} {db u : InventoryDb}

theorem writeBatchCost_cases (written : writeBatchCost tenantId c db = .ok u) :
    (∃ avg, c.batchAvgCost = some avg ∧ 0 < avg ∧ u = db.upsertCostBatch {
        tenantId := tenantId, sku1c := c.sku1c, cost := roundTo 4 avg }) ∨
      (positive c.batchAvgCost = false ∧ u = db) := by
  unfold writeBatchCost at written
  split at written
  · rename_i avg given
    split at written
    · rename_i above
      obtain ⟨_, -, written⟩ := bind_ok written
      obtain ⟨cost, rounded, written⟩ := bind_ok written
      cases written
      exact Or.inl ⟨avg, given, above, by rw [numeric_value rounded]⟩
    · rename_i refused
      cases written
      exact Or.inr ⟨by simpa [given, positive] using refused, rfl⟩
  · rename_i none_given
    cases written
    exact Or.inr ⟨by simp [none_given, positive], rfl⟩

theorem writeSupplierCost_cases (written : writeSupplierCost pf tenantId c db = .ok u) :
    (∃ price row, c.purchaseCost = some price ∧ u = db.upsertCostSupplier row ∧
        row.key = (tenantId, c.sku1c) ∧ row.purchase = roundTo 4 price ∧
        row.dealer = roundTo 4 (c.dealerCost.getD 0)) ∨
      (c.purchaseCost = none ∧ u = db) := by
  unfold writeSupplierCost at written
  split at written
  · split at written
    · rename_i price given
      obtain ⟨_, -, written⟩ := bind_ok written
      obtain ⟨_, -, written⟩ := bind_ok written
      obtain ⟨purchase, rounded, written⟩ := bind_ok written
      obtain ⟨_, -, written⟩ := bind_ok written
      obtain ⟨dealer, dealer_rounded, written⟩ := bind_ok written
      cases written
      exact Or.inl ⟨price, _, given, rfl, rfl, numeric_value rounded, numeric_value dealer_rounded⟩
    · rename_i none_given
      cases written
      exact Or.inr ⟨none_given, rfl⟩
  · rename_i neither
    cases written
    cases given : c.purchaseCost with
    | none => exact Or.inr ⟨rfl, rfl⟩
    | some price => simp [given] at neither

theorem writeCosts_append (before after : List CostInput) (db : InventoryDb) :
    writeCosts pf tenantId (before ++ after) db =
      (writeCosts pf tenantId before db >>= fun d => writeCosts pf tenantId after d) := by
  induction before generalizing db with
  | nil => rfl
  | cons c before ih =>
      rw [List.cons_append, writeCosts, writeCosts, bind_assoc]
      refine bind_congr fun d => ?_
      rw [bind_assoc]
      exact bind_congr fun e => ih e

/-- What the costs of a tenant hold under a product, as two databases see it alike. -/
structure SamePrices (tenantId : Int) (sku1c : String) (db u : InventoryDb) : Prop where
  batch : ∀ row : CostBatchRow, row.key = (tenantId, sku1c) →
    (row ∈ u.costBatch.rows ↔ row ∈ db.costBatch.rows)
  supplier : ∀ row : CostSupplierRow, row.key = (tenantId, sku1c) →
    (row ∈ u.costSupplier.rows ↔ row ∈ db.costSupplier.rows)

theorem SamePrices.of_pricesOnly {skus : List String} {sku1c : String}
    (change : PricesOnly tenantId skus db u) (other : sku1c ∉ skus) :
    SamePrices tenantId sku1c db u := by
  have out : (tenantId, sku1c) ∉ skus.map (Prod.mk tenantId) := by
    intro mem
    obtain ⟨sku, listed, same⟩ := List.mem_map.mp mem
    cases same
    exact other listed
  exact ⟨fun row key => change.batch row (key ▸ out), fun row key => change.supplier row (key ▸ out)⟩

theorem SamePrices.holds_iff {sku1c : String} (same : SamePrices tenantId sku1c db u)
    (source : CostSource) (v : ℚ) :
    Holds u tenantId sku1c source v ↔ Holds db tenantId sku1c source v := by
  have batch : ∀ P : CostBatchRow → Prop,
      (∃ row ∈ u.costBatch.rows, row.key = (tenantId, sku1c) ∧ P row) ↔
        ∃ row ∈ db.costBatch.rows, row.key = (tenantId, sku1c) ∧ P row := by
    intro P
    constructor
    · rintro ⟨row, mem, key, rest⟩
      exact ⟨row, (same.batch row key).mp mem, key, rest⟩
    · rintro ⟨row, mem, key, rest⟩
      exact ⟨row, (same.batch row key).mpr mem, key, rest⟩
  have supplier : ∀ P : CostSupplierRow → Prop,
      (∃ row ∈ u.costSupplier.rows, row.key = (tenantId, sku1c) ∧ P row) ↔
        ∃ row ∈ db.costSupplier.rows, row.key = (tenantId, sku1c) ∧ P row := by
    intro P
    constructor
    · rintro ⟨row, mem, key, rest⟩
      exact ⟨row, (same.supplier row key).mp mem, key, rest⟩
    · rintro ⟨row, mem, key, rest⟩
      exact ⟨row, (same.supplier row key).mpr mem, key, rest⟩
  cases source
  · exact batch _
  · exact supplier _
  · exact supplier _

def Unpriced (db : InventoryDb) (tenantId : Int) (sku1c : String) : Prop :=
  (tenantId, sku1c) ∉ db.costBatch.keys ∧ (tenantId, sku1c) ∉ db.costSupplier.keys

theorem SamePrices.unpriced {sku1c : String} (same : SamePrices tenantId sku1c db u)
    (unpriced : Unpriced db tenantId sku1c) : Unpriced u tenantId sku1c := by
  constructor
  · intro taken
    obtain ⟨row, mem, key⟩ := List.mem_map.mp taken
    have old := (same.batch row key).mp mem
    exact unpriced.1 (key ▸ Table.mem_keys old)
  · intro taken
    obtain ⟨row, mem, key⟩ := List.mem_map.mp taken
    have old := (same.supplier row key).mp mem
    exact unpriced.2 (key ▸ Table.mem_keys old)

theorem unpriced_deleteCosts (db : InventoryDb) (tenantId : Int) (sku1c : String) :
    Unpriced (db.deleteCosts tenantId) tenantId sku1c := by
  constructor
  · intro taken
    obtain ⟨row, mem, key⟩ := List.mem_map.mp taken
    have other := (List.mem_filter.mp mem).2
    have mine : row.tenantId = tenantId := congrArg Prod.fst key
    simp [mine] at other
  · intro taken
    obtain ⟨row, mem, key⟩ := List.mem_map.mp taken
    have other := (List.mem_filter.mp mem).2
    have mine : row.tenantId = tenantId := congrArg Prod.fst key
    simp [mine] at other

theorem holds_after_row {d : InventoryDb} {source : CostSource} {v : ℚ}
    (unpriced : Unpriced db tenantId c.sku1c) (batch : writeBatchCost tenantId c db = .ok d)
    (supplier : writeSupplierCost pf tenantId c d = .ok u) (given : costOf c source = some v)
    (above : 0 < v) :
    Holds u tenantId c.sku1c source v ↔ (source = .dealer → c.purchaseCost.isSome = true) := by
  have batch_kept : u.costBatch = d.costBatch := by
    rcases writeSupplierCost_cases supplier with ⟨_, _, -, rfl, -⟩ | ⟨-, rfl⟩
    · rfl
    · rfl
  have supplier_kept : d.costSupplier = db.costSupplier := by
    rcases writeBatchCost_cases batch with ⟨_, -, -, rfl⟩ | ⟨-, rfl⟩
    · rfl
    · rfl
  cases source with
  | batch =>
      refine ⟨fun _ => nofun, fun _ => ?_⟩
      have stated : c.batchAvgCost = some v := given
      rcases writeBatchCost_cases batch with ⟨avg, same, -, rfl⟩ | ⟨refused, -⟩
      · obtain rfl := Option.some.inj (same.symm.trans stated)
        obtain ⟨row, mem, key, cost⟩ := db.upsertCostBatch_here {
          tenantId := tenantId, sku1c := c.sku1c, cost := roundTo 4 avg }
        exact ⟨row, batch_kept ▸ mem, key, cost⟩
      · rw [stated, positive_some.mpr above] at refused
        cases refused
  | purchase =>
      refine ⟨fun _ => nofun, fun _ => ?_⟩
      have stated : c.purchaseCost = some v := given
      rcases writeSupplierCost_cases supplier with ⟨price, new, same, rfl, here, cost, -⟩ | ⟨none, -⟩
      · obtain rfl := Option.some.inj (same.symm.trans stated)
        obtain ⟨row, mem, key, same, -⟩ := d.upsertCostSupplier_here new
        exact ⟨row, mem, key.trans here, same.trans cost⟩
      · rw [stated] at none
        cases none
  | dealer =>
      have stated : c.dealerCost = some v := given
      rcases writeSupplierCost_cases supplier with ⟨price, new, same, rfl, here, -, cost⟩ | ⟨none, rfl⟩
      · refine ⟨fun _ _ => by rw [same]; rfl, fun _ => ?_⟩
        rw [stated, Option.getD_some] at cost
        obtain ⟨row, mem, key, -, same⟩ := d.upsertCostSupplier_here new
        exact ⟨row, mem, key.trans here, same.trans cost⟩
      · constructor
        · rintro ⟨row, mem, key, -⟩
          rw [supplier_kept] at mem
          exact absurd (key ▸ Table.mem_keys mem) unpriced.2
        · intro needed
          rw [none] at needed
          cases needed rfl

theorem importStatements_row {req : SnapshotRequest} {payloadHash : String}
    (done : importStatements pf tenantId req payloadHash db = .ok u)
    (distinct : (req.costs.map CostInput.sku1c).Nodup) (mem : c ∈ req.costs) :
    ∃ d₀ d₁ d₂, Unpriced d₀ tenantId c.sku1c ∧ writeBatchCost tenantId c d₀ = .ok d₁ ∧
      writeSupplierCost pf tenantId c d₁ = .ok d₂ ∧ SamePrices tenantId c.sku1c d₂ u := by
  obtain ⟨u₁, warehouses, done⟩ := bind_ok done
  obtain ⟨u₂, stocks, done⟩ := bind_ok done
  obtain ⟨u₃, costs, done⟩ := bind_ok done
  obtain ⟨-, -, batch₁, supplier₁, -⟩ := writeWarehouses_frame warehouses
  obtain ⟨-, -, batch₂, supplier₂, -⟩ := writeStocks_rows stocks
  obtain ⟨-, -, batch₄, supplier₄, -⟩ := writeSnapshot_frame done
  obtain ⟨before, after, whole⟩ := List.append_of_mem mem
  rw [whole, List.map_append, List.map_cons, List.nodup_append] at distinct
  obtain ⟨-, own, apart⟩ := distinct
  have not_before : c.sku1c ∉ before.map CostInput.sku1c := fun listed =>
    apart _ listed _ List.mem_cons_self rfl
  have not_after : c.sku1c ∉ after.map CostInput.sku1c := (List.nodup_cons.mp own).1
  rw [whole, writeCosts_append] at costs
  obtain ⟨d₀, first, costs⟩ := bind_ok costs
  obtain ⟨d₁, batch, costs⟩ := bind_ok costs
  obtain ⟨d₂, supplier, last⟩ := bind_ok costs
  have cleared : Unpriced u₂ tenantId c.sku1c := by
    unfold Unpriced
    rw [batch₂, supplier₂, batch₁, supplier₁]
    exact unpriced_deleteCosts db tenantId c.sku1c
  have rest := SamePrices.of_pricesOnly (writeCosts_pricesOnly last) not_after
  refine ⟨d₀, d₁, d₂, ?_, batch, supplier, ?_⟩
  · exact (SamePrices.of_pricesOnly (writeCosts_pricesOnly first) not_before).unpriced cleared
  · exact ⟨fun row key => by rw [batch₄]; exact rest.batch row key,
      fun row key => by rw [supplier₄]; exact rest.supplier row key⟩

theorem holds_chosen_iff {req : SnapshotRequest} {payloadHash : String} {source : CostSource} {v : ℚ}
    (done : importStatements pf tenantId req payloadHash db = .ok u)
    (distinct : (req.costs.map CostInput.sku1c).Nodup) (mem : c ∈ req.costs)
    (selected : selectUnitCost c = some (v, source)) :
    Holds u tenantId c.sku1c source v ↔ (source = .dealer → c.purchaseCost.isSome = true) := by
  obtain ⟨d₀, d₁, d₂, unpriced, batch, supplier, same⟩ := importStatements_row done distinct mem
  obtain ⟨given, above⟩ := costOf_of_selected selected
  rw [same.holds_iff]
  exact holds_after_row unpriced batch supplier given above

theorem holds_shown_iff {req : SnapshotRequest} {payloadHash : String} {previewLimit : Nat}
    {extra : List String} {shown : CostPreview}
    (done : importStatements pf tenantId req payloadHash db = .ok u)
    (distinct : (req.costs.map CostInput.sku1c).Nodup)
    (mem : shown ∈ (buildPreview req previewLimit extra).costPreview) :
    ∃ c ∈ req.costs, ∃ source : CostSource, c.sku1c = shown.sku1c ∧
      source.text = shown.costSource ∧
      (Holds u tenantId shown.sku1c source shown.selectedCost ↔
        (source = .dealer → c.purchaseCost.isSome = true)) := by
  obtain ⟨c, given, v, source, selected, rfl⟩ := selected_of_shown mem
  exact ⟨c, given, source, rfl, rfl, holds_chosen_iff done distinct given selected⟩

end Import

/-- After an import every cost that the preview chooses is stored under its source exactly when no row
has its dealer cost chosen without a purchase cost beside it. -/
theorem chosen_costs_stored_iff (pf : Platform) (tenantId : Int) (req : SnapshotRequest)
    (db : InventoryDb) (distinct : (req.costs.map CostInput.sku1c).Nodup)
    (imported : (importSnapshot pf tenantId req db).result.value.map ImportResult.status =
      some .imported) :
    (∀ c ∈ req.costs, ∀ v source, selectUnitCost c = some (v, source) →
        Holds (importSnapshot pf tenantId req db).db tenantId c.sku1c source v) ↔
      ∀ c ∈ req.costs, positive c.batchAvgCost = false → positive c.dealerCost = true →
        c.purchaseCost.isSome = true := by
  rcases importSnapshot_cases pf tenantId req db with ⟨-, other⟩ | ⟨u, done, after, -⟩
  · exact absurd imported other
  rw [after]
  refine forall₂_congr fun c mem => ?_
  constructor
  · intro held no_batch dealer
    by_contra absent
    have no_purchase : positive c.purchaseCost = false := by
      cases given : c.purchaseCost with
      | none => rfl
      | some price => simp [given] at absent
    obtain ⟨v, given, above⟩ := positive_iff.mp dealer
    have selected := selectUnitCost_dealer_iff.mpr ⟨no_batch, no_purchase, given, above⟩
    exact absent ((holds_chosen_iff done distinct mem selected).mp (held v .dealer selected) rfl)
  · intro accompanied v source selected
    refine (holds_chosen_iff done distinct mem selected).mpr ?_
    rintro rfl
    obtain ⟨no_batch, -, given, above⟩ := selectUnitCost_dealer_iff.mp selected
    exact accompanied no_batch (given ▸ positive_some.mpr above)

section Sample

open Scand.Inventory.NextImport (samplePlatform)

def costRequest (cost : CostInput) : SnapshotRequest where
  batchId := "batch-1"
  measuredAt := "2026-09-23T15:08:23Z"
  costs := [cost]

def dealerOnly : CostInput where
  sku1c := "sku-1"
  dealerCost := some 10

/-- The preview shows a dealer cost of 10, and the import of the same request stores no cost at all. -/
theorem dealer_cost_dropped :
    (buildPreview (costRequest dealerOnly) 0 []).costPreview = [{
        sku1c := "sku-1", selectedCost := 10, costSource := "dealer" }] ∧
      (importSnapshot samplePlatform 1 (costRequest dealerOnly) .empty).result.value.map
        ImportResult.status = some .imported ∧
      ¬ ∀ c ∈ (costRequest dealerOnly).costs, ∀ v source, selectUnitCost c = some (v, source) →
        Holds (importSnapshot samplePlatform 1 (costRequest dealerOnly) .empty).db 1 c.sku1c
          source v := by
  refine ⟨by decide +kernel, by decide +kernel, fun held => ?_⟩
  have none_stored : (importSnapshot samplePlatform 1 (costRequest dealerOnly)
      .empty).db.costSupplier.rows = [] := by decide +kernel
  obtain ⟨row, mem, -⟩ := held dealerOnly List.mem_cons_self 10 .dealer (by decide +kernel)
  rw [none_stored] at mem
  cases mem

theorem chosen_costs_stored_batch :
    Holds (importSnapshot samplePlatform 1
      (costRequest { sku1c := "sku-1", batchAvgCost := some 7 }) .empty).db 1 "sku-1" .batch 7 := by
  have accompanied : ∀ c ∈ (costRequest { sku1c := "sku-1", batchAvgCost := some 7 }).costs,
      positive c.batchAvgCost = false → positive c.dealerCost = true →
        c.purchaseCost.isSome = true := by decide +kernel
  have stored := (chosen_costs_stored_iff samplePlatform 1
    (costRequest { sku1c := "sku-1", batchAvgCost := some 7 }) .empty (by decide)
    (by decide +kernel)).mpr accompanied
  exact stored { sku1c := "sku-1", batchAvgCost := some 7 } List.mem_cons_self 7 .batch (by decide +kernel)

end Sample

end Scand.Inventory.Preview
