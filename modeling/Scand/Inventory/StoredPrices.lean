/- path: Scand/Inventory/StoredPrices
   layer: results
   digest: What the two price tables hold after any history of imported pulls: the prices of the pull
   that was imported last, and no others of its tenant. -/

import Scand.Inventory.CostValues
import Scand.Inventory.Preview
import Mathlib.Data.List.MinMax

set_option autoImplicit false
set_option relaxedAutoImplicit false

namespace Scand.Inventory.StoredPrices

open Scand.Foundation.KeyedTable
open Scand.Inventory.CostRows
open Scand.Inventory.CostValues (costInput_average costInput_purchase)
open Scand.Inventory.Database
open Scand.Inventory.ImportSnapshot
open Scand.Inventory.Preview (Unpriced writeBatchCost_cases unpriced_deleteCosts positive)
open Scand.Inventory.PullToSnapshot
open Scand.Inventory.Snapshot
open Scand.Ka2.Pull

section Rows

variable (pf : Platform) (tenantId : Int)

def batchRow (c : CostInput) : Option CostBatchRow :=
  (c.batchAvgCost.filter (0 < ·)).map fun avg =>
    { tenantId := tenantId, sku1c := c.sku1c, cost := roundTo 4 avg }

/-- The row that a cost leaves in `pricing_cost_supplier`, with its date as PostgreSQL reads it. -/
def supplierRow (c : CostInput) : Option CostSupplierRow :=
  c.purchaseCost.bind fun price =>
    (pf.timestamptz (c.purchaseSourceAt.getD "")).map fun sourceAt => {
      tenantId := tenantId
      sku1c := c.sku1c
      purchase := roundTo 4 price
      purchaseSource := c.purchaseSource.getD ""
      purchaseSourceAt := sourceAt
      dealer := roundTo 4 (c.dealerCost.getD 0) }

variable {pf tenantId} {c : CostInput} {costs : List CostInput} {db u : InventoryDb}

theorem batchRow_key {row : CostBatchRow} (left : batchRow tenantId c = some row) :
    row.key = (tenantId, c.sku1c) := by
  obtain ⟨avg, -, rfl⟩ := Option.map_eq_some_iff.mp left
  rfl

theorem supplierRow_key {row : CostSupplierRow} (left : supplierRow pf tenantId c = some row) :
    row.key = (tenantId, c.sku1c) := by
  obtain ⟨price, -, dated⟩ := Option.bind_eq_some_iff.mp left
  obtain ⟨sourceAt, -, rfl⟩ := Option.map_eq_some_iff.mp dated
  rfl

/-- What one cost does to a database in which its product has no price. -/
structure RowWritten (pf : Platform) (tenantId : Int) (costs : List CostInput) (db u : InventoryDb) :
    Prop where
  batch : u.costBatch.rows = db.costBatch.rows ++ costs.filterMap (batchRow tenantId)
  supplier : u.costSupplier.rows = db.costSupplier.rows ++ costs.filterMap (supplierRow pf tenantId)

private theorem writeBatchCost_rows (unpriced : Unpriced db tenantId c.sku1c)
    (written : writeBatchCost tenantId c db = .ok u) :
    u.costBatch.rows = db.costBatch.rows ++ (batchRow tenantId c).toList ∧
      u.costSupplier = db.costSupplier := by
  rcases writeBatchCost_cases written with ⟨avg, given, above, rfl⟩ | ⟨refused, rfl⟩
  · have row : batchRow tenantId c =
        some { tenantId := tenantId, sku1c := c.sku1c, cost := roundTo 4 avg } := by
      simp [batchRow, given, above]
    rw [row]
    exact ⟨Table.upsert_fresh unpriced.1, rfl⟩
  · have none_left : batchRow tenantId c = none := by
      cases given : c.batchAvgCost with
      | none => simp [batchRow, given]
      | some avg =>
          have kept : avg ≤ 0 := by simpa [positive, given] using refused
          simp [batchRow, given, kept]
    rw [none_left]
    simp

private theorem writeSupplierCost_rows (unpriced : (tenantId, c.sku1c) ∉ db.costSupplier.keys)
    (written : writeSupplierCost pf tenantId c db = .ok u) :
    u.costSupplier.rows = db.costSupplier.rows ++ (supplierRow pf tenantId c).toList ∧
      u.costBatch = db.costBatch := by
  unfold writeSupplierCost at written
  cases given : c.purchaseCost with
  | none =>
      have same : u = db := by
        simp only [given] at written
        split at written <;> cases written <;> rfl
      simp [supplierRow, given, same]
  | some price =>
      simp only [given, Option.isSome_some, Bool.true_or, if_true] at written
      obtain ⟨sourceAt, dated, written⟩ := bind_ok written
      obtain ⟨_, -, written⟩ := bind_ok written
      obtain ⟨purchase, rounded, written⟩ := bind_ok written
      obtain ⟨_, -, written⟩ := bind_ok written
      obtain ⟨dealer, dealer_rounded, written⟩ := bind_ok written
      cases written
      have read := Platform.timestamptz_of_read dated
      rw [numeric_value rounded, numeric_value dealer_rounded]
      have row : supplierRow pf tenantId c = some {
          tenantId := tenantId
          sku1c := c.sku1c
          purchase := roundTo 4 price
          purchaseSource := c.purchaseSource.getD ""
          purchaseSourceAt := sourceAt
          dealer := roundTo 4 (c.dealerCost.getD 0) } := by
        rw [supplierRow, given, Option.bind_some, read, Option.map_some]
      rw [row]
      exact ⟨Table.upsert_fresh unpriced, rfl⟩

theorem writeCosts_dated (written : writeCosts pf tenantId costs db = .ok u) (mem : c ∈ costs)
    (priced : c.purchaseCost.isSome) : ∃ sourceAt,
      pf.timestamptz (c.purchaseSourceAt.getD "") = some sourceAt := by
  induction costs generalizing db with
  | nil => cases mem
  | cons first costs ih =>
      obtain ⟨mid, -, written⟩ := bind_ok written
      obtain ⟨d, supplier, written⟩ := bind_ok written
      rcases List.mem_cons.mp mem with rfl | later
      · obtain ⟨price, given⟩ := Option.isSome_iff_exists.mp priced
        simp only [writeSupplierCost, given, Option.isSome_some, Bool.true_or, if_true] at supplier
        obtain ⟨sourceAt, dated, -⟩ := bind_ok supplier
        exact ⟨sourceAt, Platform.timestamptz_of_read dated⟩
      · exact ih written later

private theorem unpriced_after {d : InventoryDb} {sku1c : String} (other : sku1c ≠ c.sku1c)
    (batch : d.costBatch.rows = db.costBatch.rows ++ (batchRow tenantId c).toList)
    (supplier : d.costSupplier.rows = db.costSupplier.rows ++ (supplierRow pf tenantId c).toList)
    (unpriced : Unpriced db tenantId sku1c) : Unpriced d tenantId sku1c := by
  have apart : ∀ key, key = (tenantId, c.sku1c) → key ≠ (tenantId, sku1c) := by
    rintro key rfl same
    exact other (congrArg Prod.snd same).symm
  constructor
  · intro taken
    rw [Table.keys, batch, List.map_append, List.mem_append] at taken
    rcases taken with old | new
    · exact unpriced.1 old
    · obtain ⟨row, left, key⟩ := List.mem_map.mp new
      exact apart _ (batchRow_key (Option.mem_toList.mp left)) key
  · intro taken
    rw [Table.keys, supplier, List.map_append, List.mem_append] at taken
    rcases taken with old | new
    · exact unpriced.2 old
    · obtain ⟨row, left, key⟩ := List.mem_map.mp new
      exact apart _ (supplierRow_key (Option.mem_toList.mp left)) key

theorem writeCosts_rows (written : writeCosts pf tenantId costs db = .ok u)
    (distinct : (costs.map CostInput.sku1c).Nodup)
    (unpriced : ∀ c ∈ costs, Unpriced db tenantId c.sku1c) : RowWritten pf tenantId costs db u := by
  induction costs generalizing db with
  | nil =>
      cases written
      exact ⟨(List.append_nil _).symm, (List.append_nil _).symm⟩
  | cons c costs ih =>
      rw [List.map_cons, List.nodup_cons] at distinct
      obtain ⟨mid, batch, written⟩ := bind_ok written
      obtain ⟨d, supplier, written⟩ := bind_ok written
      have own := unpriced c List.mem_cons_self
      obtain ⟨batch_rows, supplier_kept⟩ := writeBatchCost_rows own batch
      obtain ⟨supplier_rows, batch_kept⟩ := writeSupplierCost_rows (supplier_kept ▸ own.2) supplier
      rw [supplier_kept] at supplier_rows
      rw [← batch_kept] at batch_rows
      have rest := ih written distinct.2 fun other mem => by
        have apart : other.sku1c ≠ c.sku1c := fun same =>
          distinct.1 (same ▸ List.mem_map_of_mem mem)
        exact unpriced_after apart batch_rows supplier_rows
          (unpriced other (List.mem_cons_of_mem _ mem))
      constructor
      · rw [rest.batch, batch_rows, List.append_assoc, List.filterMap_cons]
        cases batchRow tenantId c <;> rfl
      · rw [rest.supplier, supplier_rows, List.append_assoc, List.filterMap_cons]
        cases supplierRow pf tenantId c <;> rfl

theorem importStatements_rows {req : SnapshotRequest} {payloadHash : String}
    (distinct : (req.costs.map CostInput.sku1c).Nodup)
    (done : importStatements pf tenantId req payloadHash db = .ok u) :
    RowWritten pf tenantId req.costs (db.deleteCosts tenantId) u := by
  obtain ⟨u₁, warehouses, done⟩ := bind_ok done
  obtain ⟨u₂, stocks, done⟩ := bind_ok done
  obtain ⟨u₃, costs, done⟩ := bind_ok done
  obtain ⟨-, -, batch₁, supplier₁, -⟩ := writeWarehouses_frame warehouses
  obtain ⟨-, -, batch₂, supplier₂, -⟩ := writeStocks_rows stocks
  obtain ⟨-, -, batch₄, supplier₄, -⟩ := writeSnapshot_frame done
  have batch : u₂.costBatch = (db.deleteCosts tenantId).costBatch := batch₂.trans batch₁
  have supplier : u₂.costSupplier = (db.deleteCosts tenantId).costSupplier := supplier₂.trans supplier₁
  have unpriced : ∀ c ∈ req.costs, Unpriced u₂ tenantId c.sku1c := by
    intro c _
    have cleared := unpriced_deleteCosts db tenantId c.sku1c
    exact ⟨batch ▸ cleared.1, supplier ▸ cleared.2⟩
  have rows := writeCosts_rows costs distinct unpriced
  constructor
  · rw [batch₄, rows.batch, batch]
  · rw [supplier₄, rows.supplier, supplier]

end Rows

section Pulls

variable {pf : Platform} {tenantId : Int} {pull : PullResult} {sku : String}

theorem minPurchase_argmin (pull : PullResult) (sku : String) :
    minPurchase pull sku =
      (((offersOf pull sku).argmin SupplierPrice.price).map fun offer => (offer.price, offer.period)).getD
        (0, "") := by
  have positive : ∀ offer ∈ offersOf pull sku, 0 < offer.price := fun offer mem => offer_positive mem
  rw [minPurchase_eq]
  generalize offersOf pull sku = offers at positive
  induction offers using List.reverseRecOn with
  | nil => rfl
  | append_singleton offers offer ih =>
      have before := ih fun other mem => positive other (List.mem_append_left _ mem)
      rw [List.foldl_append, before, List.argmin_concat, List.foldl_cons, List.foldl_nil, cheaper]
      cases least : offers.argmin SupplierPrice.price with
      | none => exact if_pos (Or.inl rfl)
      | some best =>
          have priced : best.price ≠ 0 :=
            ne_of_gt (positive best (List.mem_append_left _ (List.argmin_mem least)))
          simp only [Option.map_some, Option.getD_some, priced, false_or]
          split <;> rfl

/-- The prices that a pull stands for: the average over all batches, and the first of the cheapest
offers of the products that have a batch, whose dates PostgreSQL reads. -/
structure PricesOf (pf : Platform) (tenantId : Int) (pull : PullResult) (before after : InventoryDb) :
    Prop where
  batch : ∀ row, row ∈ after.costBatch.rows ↔
    (row ∈ before.costBatch.rows ∧ row.tenantId ≠ tenantId) ∨
      ((0 < totalQty pull row.sku1c ∧ 0 < totalCost pull row.sku1c) ∧ row = {
        tenantId := tenantId
        sku1c := row.sku1c
        cost := roundTo 4 (totalCost pull row.sku1c / totalQty pull row.sku1c) })
  supplier : ∀ row, row ∈ after.costSupplier.rows ↔
    (row ∈ before.costSupplier.rows ∧ row.tenantId ≠ tenantId) ∨
      (costsOf pull row.sku1c ≠ [] ∧ ∃ offer sourceAt,
        (offersOf pull row.sku1c).argmin SupplierPrice.price = some offer ∧
        pf.timestamptz offer.period = some sourceAt ∧ row = {
          tenantId := tenantId
          sku1c := row.sku1c
          purchase := roundTo 4 offer.price
          purchaseSource := "supplier_register"
          purchaseSourceAt := sourceAt
          dealer := 0 })
  dated : ∀ sku offer, costsOf pull sku ≠ [] →
    (offersOf pull sku).argmin SupplierPrice.price = some offer →
    (pf.timestamptz offer.period).isSome

section Import

variable {offerByRef : String → Option String} {allowed : List String} {order : HashOrder}
  {period : String} {isPreview : Bool} {db u : InventoryDb}

private theorem costInput_priced {entry : String × ℚ × ℚ} {c : CostInput}
    (made : costInput pull entry = some c) (priced : 0 < (minPurchase pull entry.1).1) :
    c.purchaseCost = some (minPurchase pull entry.1).1 ∧
      c.purchaseSource = some "supplier_register" ∧ c.dealerCost = none := by
  obtain ⟨sku, cost, qty⟩ := entry
  simp only [costInput, Option.ite_none_right_eq_some, Option.some.injEq] at made
  rw [← made.2]
  exact ⟨if_pos priced, if_pos priced, rfl⟩

private theorem minPurchase_eq_iff {price : ℚ} {at_ : String} :
    (0 < (minPurchase pull sku).1 ∧ minPurchase pull sku = (price, at_)) ↔
      ∃ offer, (offersOf pull sku).argmin SupplierPrice.price = some offer ∧
        offer.price = price ∧ offer.period = at_ := by
  rw [minPurchase_argmin]
  cases least : (offersOf pull sku).argmin SupplierPrice.price with
  | none => simp
  | some offer => simp [offer_positive (List.argmin_mem least)]

private theorem mem_costs_made {c : CostInput} :
    c ∈ (pullToSnapshot pull offerByRef allowed order period isPreview).costs ↔
      costsOf pull c.sku1c ≠ [] ∧
        costInput pull (c.sku1c, totalCost pull c.sku1c, totalQty pull c.sku1c) = some c :=
  mem_costs pull offerByRef allowed order period isPreview

private theorem batch_rows_iff {row : CostBatchRow} :
    row ∈ (pullToSnapshot pull offerByRef allowed order period isPreview).costs.filterMap
        (batchRow tenantId) ↔
      (0 < totalQty pull row.sku1c ∧ 0 < totalCost pull row.sku1c) ∧ row = {
        tenantId := tenantId
        sku1c := row.sku1c
        cost := roundTo 4 (totalCost pull row.sku1c / totalQty pull row.sku1c) } := by
  rw [List.mem_filterMap]
  constructor
  · rintro ⟨c, mem, left⟩
    obtain ⟨-, made⟩ := mem_costs_made.mp mem
    obtain ⟨avg, given, rfl⟩ := Option.map_eq_some_iff.mp left
    obtain ⟨given, -⟩ := Option.filter_eq_some_iff.mp given
    obtain ⟨positive, rfl⟩ := (costInput_average made).mp given
    exact ⟨positive.symm, rfl⟩
  · rintro ⟨⟨qty, cost⟩, same⟩
    have usable : (costInput pull (row.sku1c, totalCost pull row.sku1c,
        totalQty pull row.sku1c)).isSome = true :=
      costInput_isSome_iff.mpr (Or.inl ⟨qty, cost⟩)
    obtain ⟨c, made⟩ := Option.isSome_iff_exists.mp usable
    have own : c.sku1c = row.sku1c := costInput_sku made
    have costed : costsOf pull row.sku1c ≠ [] := by
      intro none_left
      rw [totalQty, none_left] at qty
      exact lt_irrefl _ qty
    have average : c.batchAvgCost = some (totalCost pull row.sku1c / totalQty pull row.sku1c) :=
      (costInput_average made).mpr ⟨⟨cost, qty⟩, rfl⟩
    have above : 0 < totalCost pull row.sku1c / totalQty pull row.sku1c := div_pos cost qty
    refine ⟨c, mem_costs_made.mpr (own ▸ ⟨costed, made⟩), ?_⟩
    rw [batchRow, average, Option.filter_some, decide_eq_true above, if_pos rfl, Option.map_some, own]
    exact congrArg some same.symm

private theorem offer_purchased {offer : SupplierPrice} (costed : costsOf pull sku ≠ [])
    (least : (offersOf pull sku).argmin SupplierPrice.price = some offer) :
    ∃ c ∈ (pullToSnapshot pull offerByRef allowed order period isPreview).costs,
      c.sku1c = sku ∧ c.purchaseCost = some offer.price ∧
        c.purchaseSource = some "supplier_register" ∧ c.purchaseSourceAt = some offer.period ∧
        c.dealerCost = none := by
  obtain ⟨positive, cheapest⟩ := minPurchase_eq_iff.mpr ⟨offer, least, rfl, rfl⟩
  have offered : offersOf pull sku ≠ [] := minPurchase_pos_iff.mp positive
  have usable : (costInput pull (sku, totalCost pull sku, totalQty pull sku)).isSome = true :=
    costInput_isSome_iff.mpr (Or.inr offered)
  obtain ⟨c, made⟩ := Option.isSome_iff_exists.mp usable
  have own : c.sku1c = sku := costInput_sku made
  obtain ⟨price, source, dealer⟩ := costInput_priced made positive
  have at_ := costInput_sourceAt made positive
  rw [cheapest] at price at_
  exact ⟨c, mem_costs_made.mpr (own ▸ ⟨costed, made⟩), own, price, source, at_, dealer⟩

private theorem supplier_rows_iff {row : CostSupplierRow} :
    row ∈ (pullToSnapshot pull offerByRef allowed order period isPreview).costs.filterMap
        (supplierRow pf tenantId) ↔
      costsOf pull row.sku1c ≠ [] ∧ ∃ offer sourceAt,
        (offersOf pull row.sku1c).argmin SupplierPrice.price = some offer ∧
        pf.timestamptz offer.period = some sourceAt ∧ row = {
          tenantId := tenantId
          sku1c := row.sku1c
          purchase := roundTo 4 offer.price
          purchaseSource := "supplier_register"
          purchaseSourceAt := sourceAt
          dealer := 0 } := by
  have no_dealer : roundTo 4 0 = 0 := by norm_num [roundTo]
  rw [List.mem_filterMap]
  constructor
  · rintro ⟨c, mem, left⟩
    obtain ⟨costed, made⟩ := mem_costs_made.mp mem
    obtain ⟨price, given, dated⟩ := Option.bind_eq_some_iff.mp left
    obtain ⟨sourceAt, read, rfl⟩ := Option.map_eq_some_iff.mp dated
    obtain ⟨positive, rfl⟩ := (costInput_purchase made).mp given
    obtain ⟨-, source, dealer⟩ := costInput_priced made positive
    rw [costInput_sourceAt made positive, Option.getD_some] at read
    obtain ⟨offer, least, cheapest, at_⟩ := minPurchase_eq_iff.mp ⟨positive, rfl⟩
    refine ⟨costed, offer, sourceAt, least, at_ ▸ read, ?_⟩
    rw [source, dealer, cheapest, Option.getD_none, no_dealer]
    rfl
  · rintro ⟨costed, offer, sourceAt, least, read, same⟩
    obtain ⟨c, mem, own, price, source, at_, dealer⟩ :=
      offer_purchased costed least
    refine ⟨c, mem, ?_⟩
    rw [supplierRow, price, Option.bind_some, at_, Option.getD_some, read, Option.map_some, source,
      dealer, Option.getD_none, no_dealer, own]
    exact congrArg some same.symm

theorem pricesOf_imported {payloadHash : String}
    (done : importStatements pf tenantId
      (pullToSnapshot pull offerByRef allowed order period isPreview) payloadHash db = .ok u) :
    PricesOf pf tenantId pull db u := by
  have rows := importStatements_rows
    (nodup_cost_skus pull offerByRef allowed order period isPreview) done
  constructor
  · intro row
    rw [rows.batch, List.mem_append, batch_rows_iff]
    simp [InventoryDb.deleteCosts]
  · intro row
    rw [rows.supplier, List.mem_append, supplier_rows_iff]
    simp [InventoryDb.deleteCosts]
  · intro sku offer costed least
    obtain ⟨u₁, -, done⟩ := bind_ok done
    obtain ⟨u₂, -, done⟩ := bind_ok done
    obtain ⟨u₃, written, -⟩ := bind_ok done
    obtain ⟨c, mem, -, price, -, at_, -⟩ :=
      offer_purchased costed least
    obtain ⟨sourceAt, read⟩ := writeCosts_dated written mem (price ▸ rfl)
    rw [at_, Option.getD_some] at read
    exact read ▸ rfl

end Import

end Pulls

section Histories

variable (pf : Platform) (tenantId : Int)

structure PullRun where
  pull : PullResult
  offerByRef : String → Option String
  allowed : List String
  order : HashOrder
  period : String

def PullRun.request (run : PullRun) : SnapshotRequest :=
  pullToSnapshot run.pull run.offerByRef run.allowed run.order run.period false

def lastImported (db : InventoryDb) : List PullRun → Option PullRun
  | [] => none
  | run :: rest =>
      let outcome := importSnapshot pf tenantId run.request db
      (lastImported outcome.db rest).or
        (if outcome.result.value.map ImportResult.status = some .imported then some run else none)

/-- What the price tables hold of the tenant: the prices of the pull, or what they held before. -/
def PricesAfter (before after : InventoryDb) : Option PullRun → Prop
  | none => after.costBatch = before.costBatch ∧ after.costSupplier = before.costSupplier
  | some run => PricesOf pf tenantId run.pull before after

variable {pf tenantId} {a b c : InventoryDb}

theorem PricesAfter.trans {first second : Option PullRun} (early : PricesAfter pf tenantId a b first)
    (late : PricesAfter pf tenantId b c second) : PricesAfter pf tenantId a c (second.or first) := by
  cases second with
  | none =>
      obtain ⟨batch, supplier⟩ := late
      cases first with
      | none => exact ⟨batch.trans early.1, supplier.trans early.2⟩
      | some run => exact ⟨fun row => batch ▸ early.batch row, fun row => supplier ▸ early.supplier row,
          early.dated⟩
  | some run =>
      cases first with
      | none =>
          obtain ⟨batch, supplier⟩ := early
          exact ⟨fun row => batch ▸ late.batch row, fun row => supplier ▸ late.supplier row, late.dated⟩
      | some other =>
          constructor
          · intro row
            have foreign : row ∈ b.costBatch.rows ∧ row.tenantId ≠ tenantId ↔
                row ∈ a.costBatch.rows ∧ row.tenantId ≠ tenantId := by
              rw [early.batch row, and_congr_left_iff]
              intro apart
              constructor
              · rintro (old | ⟨-, own⟩)
                · exact old.1
                · exact absurd (congrArg CostBatchRow.tenantId own) apart
              · exact fun old => Or.inl ⟨old, apart⟩
            rw [late.batch row, foreign]
          · intro row
            have foreign : row ∈ b.costSupplier.rows ∧ row.tenantId ≠ tenantId ↔
                row ∈ a.costSupplier.rows ∧ row.tenantId ≠ tenantId := by
              rw [early.supplier row, and_congr_left_iff]
              intro apart
              constructor
              · rintro (old | ⟨-, _, _, -, -, own⟩)
                · exact old.1
                · exact absurd (congrArg CostSupplierRow.tenantId own) apart
              · exact fun old => Or.inl ⟨old, apart⟩
            rw [late.supplier row, foreign]
          · exact late.dated

theorem pricesAfter_import (run : PullRun) (db : InventoryDb) :
    PricesAfter pf tenantId db (importSnapshot pf tenantId run.request db).db
      (if (importSnapshot pf tenantId run.request db).result.value.map ImportResult.status =
        some .imported then some run else none) := by
  rcases importSnapshot_cases pf tenantId run.request db with ⟨same, other⟩ | ⟨u, done, after, value⟩
  · rw [if_neg other, same]
    exact ⟨rfl, rfl⟩
  · rw [value, after]
    exact pricesOf_imported done

/-- After any history of imports, refused and repeated ones among them, the price tables hold of the
tenant exactly the prices of the pull that was imported last, and of the others what they held before. -/
theorem prices_of_last_import (pf : Platform) (tenantId : Int) (history : List PullRun)
    (db : InventoryDb) :
    PricesAfter pf tenantId db (importAll pf tenantId (history.map PullRun.request) db)
      (lastImported pf tenantId db history) := by
  induction history generalizing db with
  | nil => exact ⟨rfl, rfl⟩
  | cons run history ih => exact (pricesAfter_import run db).trans (ih _)

end Histories

end Scand.Inventory.StoredPrices
