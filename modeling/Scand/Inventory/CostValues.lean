/- path: Scand/Inventory/CostValues
   layer: results
   digest: What a cost row of a snapshot says: the average over all batches of its product, and the
   lowest of its supplier prices. -/

import Scand.Inventory.CostRows

set_option autoImplicit false
set_option relaxedAutoImplicit false

namespace Scand.Inventory.CostValues

open Scand.Foundation.KeyedTable (find?_key_of_nodup)
open Scand.Inventory.CostRows
open Scand.Inventory.PullToSnapshot
open Scand.Inventory.Snapshot
open Scand.Ka2.Pull

def MapsTo (pull : PullResult) (analyticKey sku : String) : Prop :=
  ∃ a ∈ pull.analytics, a.refKey = analyticKey ∧ a.nomenclatureKey = sku ∧ analyticKey ≠ "" ∧ sku ≠ ""

instance (pull : PullResult) (analyticKey sku : String) : Decidable (MapsTo pull analyticKey sku) :=
  inferInstanceAs (Decidable (∃ a ∈ pull.analytics,
    a.refKey = analyticKey ∧ a.nomenclatureKey = sku ∧ analyticKey ≠ "" ∧ sku ≠ ""))

def costRows (pull : PullResult) (sku : String) : List CostBalance :=
  pull.costs.filter fun c => MapsTo pull c.analyticKey sku

def costSum (pull : PullResult) (sku : String) : ℚ := ((costRows pull sku).map CostBalance.cost).sum

def quantitySum (pull : PullResult) (sku : String) : ℚ :=
  ((costRows pull sku).map CostBalance.quantity).sum

/-- What is expected of the cost rows that are made of a pull. -/
structure CostsRight (pull : PullResult) (costs : List CostInput) : Prop where
  skus : (costs.map CostInput.sku1c).Nodup
  average : ∀ row ∈ costs, ∀ avg, row.batchAvgCost = some avg ↔
    (0 < costSum pull row.sku1c ∧ 0 < quantitySum pull row.sku1c) ∧
      avg = costSum pull row.sku1c / quantitySum pull row.sku1c
  priced : ∀ row ∈ costs, row.purchaseCost.isSome = true ↔
    ∃ sp ∈ pull.suppliers, sp.nomenclatureKey = row.sku1c ∧ 0 < sp.price
  lowest : ∀ row ∈ costs, ∀ price, row.purchaseCost = some price →
    ∃ offer, Cheapest (offersOf pull row.sku1c) offer ∧ offer.price = price ∧
      row.purchaseSourceAt = some offer.period

section Analytics

variable {pull : PullResult}

theorem analitToNom_eq_some_iff (distinct : (pull.analytics.map AnalyticKey.refKey).Nodup)
    {analyticKey sku : String} :
    analitToNom pull analyticKey = some sku ↔ MapsTo pull analyticKey sku := by
  have usable : ((pull.analytics.filter fun a =>
      a.refKey ≠ "" ∧ a.nomenclatureKey ≠ "").reverse.map AnalyticKey.refKey).Nodup := by
    rw [List.map_reverse, List.nodup_reverse]
    exact distinct.sublist (List.filter_sublist.map AnalyticKey.refKey)
  rw [analitToNom, Option.map_eq_some_iff]
  simp only [find?_key_of_nodup usable, List.mem_reverse, List.mem_filter, decide_eq_true_eq]
  constructor
  · rintro ⟨a, ⟨⟨listed, keyed, filled⟩, rfl⟩, rfl⟩
    exact ⟨a, listed, rfl, rfl, keyed, filled⟩
  · rintro ⟨a, listed, rfl, rfl, keyed, filled⟩
    exact ⟨a, ⟨⟨listed, keyed, filled⟩, rfl⟩, rfl⟩

theorem costsOf_eq (distinct : (pull.analytics.map AnalyticKey.refKey).Nodup) (sku : String) :
    costsOf pull sku = costRows pull sku := by
  refine List.filter_congr fun c _ => ?_
  rw [decide_eq_decide]
  exact analitToNom_eq_some_iff distinct

end Analytics

section Rows

variable {pull : PullResult} {entry : String × ℚ × ℚ} {row : CostInput}

theorem costInput_average (made : costInput pull entry = some row) {avg : ℚ} :
    row.batchAvgCost = some avg ↔ (0 < entry.2.1 ∧ 0 < entry.2.2) ∧ avg = entry.2.1 / entry.2.2 := by
  obtain ⟨sku, cost, qty⟩ := entry
  simp only [costInput, Option.ite_none_right_eq_some, Option.some.injEq] at made
  rw [← made.2]
  by_cases averaged : 0 < qty ∧ 0 < cost
  · simp [averaged, eq_comm]
  · have reversed : ¬ (0 < cost ∧ 0 < qty) := fun both => averaged both.symm
    simp [averaged, reversed]

theorem costInput_purchase (made : costInput pull entry = some row) {price : ℚ} :
    row.purchaseCost = some price ↔ 0 < (minPurchase pull entry.1).1 ∧
      (minPurchase pull entry.1).1 = price := by
  obtain ⟨sku, cost, qty⟩ := entry
  simp only [costInput, Option.ite_none_right_eq_some, Option.some.injEq] at made
  rw [← made.2]
  show (if 0 < (minPurchase pull sku).1 then some (minPurchase pull sku).1 else none) = some price ↔ _
  rw [Option.ite_none_right_eq_some, Option.some.injEq]

end Rows

/-- The cost rows of a snapshot have distinct products, with the average cost over all the batches of
the product and the lowest of its positive supplier prices. -/
theorem cost_values (pull : PullResult) (offerByRef : String → Option String) (allowed : List String)
    (order : HashOrder) (period : String) (isPreview : Bool)
    (distinct : (pull.analytics.map AnalyticKey.refKey).Nodup) :
    CostsRight pull (pullToSnapshot pull offerByRef allowed order period isPreview).costs := by
  have made_of : ∀ row ∈ (pullToSnapshot pull offerByRef allowed order period isPreview).costs,
      costInput pull (row.sku1c, totalCost pull row.sku1c, totalQty pull row.sku1c) = some row :=
    fun row mem => ((mem_costs pull offerByRef allowed order period isPreview).mp mem).2
  refine ⟨nodup_cost_skus pull offerByRef allowed order period isPreview, ?_, ?_, ?_⟩
  · intro row mem avg
    have read : row.batchAvgCost = some avg ↔ _ := costInput_average (made_of row mem)
    rw [totalCost, totalQty, costsOf_eq distinct] at read
    exact read
  · intro row mem
    rw [← offersOf_ne_nil, ← minPurchase_pos_iff, Option.isSome_iff_exists]
    constructor
    · rintro ⟨price, read⟩
      exact ((costInput_purchase (made_of row mem)).mp read).1
    · intro positive
      exact ⟨_, (costInput_purchase (made_of row mem)).mpr ⟨positive, rfl⟩⟩
  · intro row mem price read
    obtain ⟨positive, same⟩ := (costInput_purchase (made_of row mem)).mp read
    obtain ⟨offer, cheapest, equal⟩ := minPurchase_cheapest (minPurchase_pos_iff.mp positive)
    have dated := costInput_sourceAt (made_of row mem) positive
    simp only [equal] at same dated
    exact ⟨offer, cheapest, same, dated⟩

section Sample

def twoBatches : PullResult where
  analytics := [{ refKey := "a-1", nomenclatureKey := "p-1" }]
  costs := [
    { analyticKey := "a-1", organizationKey := "org-1", batchKey := "b-1", quantity := 2, cost := 30 },
    { analyticKey := "a-1", organizationKey := "org-2", batchKey := "b-2", quantity := 1, cost := 30 }]
  suppliers := [
    { period := "2026-09-01T00:00:00", partnerKey := "partner-1", nomenclatureKey := "p-1", price := 25 },
    { period := "2026-09-02T00:00:00", partnerKey := "partner-2", nomenclatureKey := "p-1", price := 19 }]

theorem cost_values_two_batches :
    let costs :=
      (pullToSnapshot twoBatches (fun _ => none) [] walkAsStored "2026-09-23T00:00:00" false).costs
    CostsRight twoBatches costs ∧ costs = [{
      sku1c := "p-1"
      batchAvgCost := some 20
      purchaseCost := some 19
      purchaseSource := some "supplier_register"
      purchaseSourceAt := some "2026-09-02T00:00:00" }] :=
  ⟨cost_values twoBatches (fun _ => none) [] walkAsStored "2026-09-23T00:00:00" false (by decide),
    by decide +kernel⟩

end Sample

end Scand.Inventory.CostValues
