/- path: Scand/Inventory/CostRows
   layer: results
   digest: The cost rows of a snapshot: what stands in the row of a product, and when every product
   with a usable price has exactly one. -/

import Scand.Foundation.KeyedTable
import Scand.Inventory.PullToSnapshot
import Mathlib.Algebra.BigOperators.Group.List.Basic

set_option autoImplicit false
set_option relaxedAutoImplicit false

namespace Scand.Inventory.CostRows

open Scand.Foundation.Accumulate
open Scand.Inventory.PullToSnapshot
open Scand.Inventory.Snapshot
open Scand.Ka2.Pull

def costsOf (pull : PullResult) (sku : String) : List CostBalance :=
  pull.costs.filter fun c => analitToNom pull c.analyticKey = some sku

def offersOf (pull : PullResult) (sku : String) : List SupplierPrice :=
  pull.suppliers.filter fun sp => sp.nomenclatureKey = sku ∧ 0 < sp.price

def totalCost (pull : PullResult) (sku : String) : ℚ :=
  ((costsOf pull sku).map CostBalance.cost).sum

def totalQty (pull : PullResult) (sku : String) : ℚ :=
  ((costsOf pull sku).map CostBalance.quantity).sum

section Entries

variable {pull : PullResult} {sku : String}

theorem bySku_distinct (pull : PullResult) : ((bySku pull).map Prod.fst).Nodup :=
  nodup_keys_accumulate _ List.nodup_nil

private theorem filter_costRows (costs : List CostBalance) :
    ((costs.filterMap fun c => (analitToNom pull c.analyticKey).map fun sku => (sku, c)).filter
      fun row => row.1 = sku) =
      (costs.filter fun c => analitToNom pull c.analyticKey = some sku).map (Prod.mk sku) := by
  induction costs with
  | nil => rfl
  | cons c costs ih =>
      rw [List.filterMap_cons, List.filter_cons]
      cases found : analitToNom pull c.analyticKey with
      | none => simpa using ih
      | some other =>
          by_cases same : other = sku
          · simp [same, ih]
          · simp [same, ih]

private theorem foldl_sums (costs : List CostBalance) (start : ℚ × ℚ) :
    (costs.map (Prod.mk sku)).foldl
        (fun found row => some ((found.getD (0, 0)).1 + row.2.cost,
          (found.getD (0, 0)).2 + row.2.quantity)) (some start) =
      some (start.1 + (costs.map CostBalance.cost).sum,
        start.2 + (costs.map CostBalance.quantity).sum) := by
  induction costs generalizing start with
  | nil => simp
  | cons c costs ih =>
      rw [List.map_cons, List.foldl_cons, Option.getD_some, ih, List.map_cons, List.map_cons,
        List.sum_cons, List.sum_cons, add_assoc, add_assoc]

theorem mem_bySku {totals : ℚ × ℚ} :
    (sku, totals) ∈ bySku pull ↔
      costsOf pull sku ≠ [] ∧ totals = (totalCost pull sku, totalQty pull sku) := by
  rw [mem_iff_lookup (bySku_distinct pull), bySku, lookup_accumulate, filter_costRows]
  simp only [List.lookup_nil]
  change List.foldl _ none ((costsOf pull sku).map (Prod.mk sku)) = some totals ↔ _
  unfold totalCost totalQty
  cases costsOf pull sku with
  | nil => simp
  | cons c costs =>
      rw [List.map_cons, List.foldl_cons, Option.getD_none, foldl_sums]
      simp [eq_comm]

end Entries

section Purchases

variable {pull : PullResult} {sku : String}

def cheaper (best : ℚ × String) (sp : SupplierPrice) : ℚ × String :=
  if best.1 = 0 ∨ sp.price < best.1 then (sp.price, sp.period) else best

theorem minPurchase_eq (pull : PullResult) (sku : String) :
    minPurchase pull sku = (offersOf pull sku).foldl cheaper (0, "") := by
  unfold minPurchase offersOf
  generalize ((0 : ℚ), "") = start
  induction pull.suppliers generalizing start with
  | nil => rfl
  | cons sp suppliers ih =>
      rw [List.foldl_cons, List.filter_cons, ih]
      by_cases own : sp.nomenclatureKey = sku
      · by_cases free : sp.price ≤ 0
        · simp [own, free, not_lt.mpr free]
        · simp [own, free, not_le.mp free, cheaper]
      · simp [own]

def Cheapest (rows : List SupplierPrice) (x : SupplierPrice) : Prop :=
  x ∈ rows ∧ ∀ y ∈ rows, x.price ≤ y.price

private theorem foldl_cheaper (rows : List SupplierPrice) (positive : ∀ y ∈ rows, 0 < y.price)
    (x : SupplierPrice) (first : 0 < x.price) :
    ∃ best, Cheapest (x :: rows) best ∧
      rows.foldl cheaper (x.price, x.period) = (best.price, best.period) ∧
      ((∀ y ∈ rows, x.price ≤ y.price) → best = x) := by
  induction rows generalizing x with
  | nil => exact ⟨x, ⟨List.mem_cons_self, by simp⟩, rfl, fun _ => rfl⟩
  | cons y rows ih =>
      have rest : ∀ z ∈ rows, 0 < z.price := fun z mem => positive z (List.mem_cons_of_mem _ mem)
      have nonzero : x.price ≠ 0 := ne_of_gt first
      by_cases lower : y.price < x.price
      · obtain ⟨best, ⟨mem, least⟩, folded, -⟩ :=
          ih rest y (positive y List.mem_cons_self)
        refine ⟨best, ⟨List.mem_cons_of_mem _ mem, ?_⟩, ?_, ?_⟩
        · intro z in_z
          rcases List.mem_cons.mp in_z with rfl | later
          · exact (least y List.mem_cons_self).trans lower.le
          · exact least z later
        · rw [List.foldl_cons, cheaper, if_pos (Or.inr lower), folded]
        · intro least_x
          exact absurd (least_x y List.mem_cons_self) (not_le.mpr lower)
      · obtain ⟨best, ⟨mem, least⟩, folded, same⟩ := ih rest x first
        refine ⟨best, ⟨?_, ?_⟩, ?_, ?_⟩
        · rcases List.mem_cons.mp mem with rfl | later
          · exact List.mem_cons_self
          · exact List.mem_cons_of_mem _ (List.mem_cons_of_mem _ later)
        · intro z in_z
          rcases List.mem_cons.mp in_z with rfl | later
          · exact least z List.mem_cons_self
          · rcases List.mem_cons.mp later with rfl | later
            · exact (least x List.mem_cons_self).trans (not_lt.mp lower)
            · exact least z (List.mem_cons_of_mem _ later)
        · have kept : ¬ (x.price = 0 ∨ y.price < x.price) := fun given =>
            given.elim nonzero lower
          rw [List.foldl_cons, cheaper, if_neg kept, folded]
        · intro least_x
          exact same fun z in_z => least_x z (List.mem_cons_of_mem _ in_z)

theorem offer_positive {x : SupplierPrice} (mem : x ∈ offersOf pull sku) : 0 < x.price := by
  have given := (List.mem_filter.mp mem).2
  simp only [decide_eq_true_eq] at given
  exact given.2

theorem minPurchase_cheapest (offered : offersOf pull sku ≠ []) :
    ∃ best, Cheapest (offersOf pull sku) best ∧ minPurchase pull sku = (best.price, best.period) := by
  rw [minPurchase_eq]
  cases offers : offersOf pull sku with
  | nil => exact absurd offers offered
  | cons x rows =>
      have positive : ∀ y ∈ x :: rows, 0 < y.price := fun y mem => offer_positive (offers ▸ mem)
      obtain ⟨best, least, folded, -⟩ := foldl_cheaper rows
        (fun y mem => positive y (List.mem_cons_of_mem _ mem)) x (positive x List.mem_cons_self)
      refine ⟨best, least, ?_⟩
      rw [List.foldl_cons, cheaper, if_pos (Or.inl rfl), folded]

theorem minPurchase_first {x : SupplierPrice} {rows : List SupplierPrice}
    (offers : offersOf pull sku = x :: rows) (least : ∀ y ∈ rows, x.price ≤ y.price) :
    minPurchase pull sku = (x.price, x.period) := by
  have positive : ∀ y ∈ x :: rows, 0 < y.price := fun y mem => offer_positive (offers ▸ mem)
  obtain ⟨best, -, folded, same⟩ := foldl_cheaper rows
    (fun y mem => positive y (List.mem_cons_of_mem _ mem)) x (positive x List.mem_cons_self)
  rw [minPurchase_eq, offers, List.foldl_cons, cheaper, if_pos (Or.inl rfl), folded, same least]

theorem minPurchase_pos_iff : 0 < (minPurchase pull sku).1 ↔ offersOf pull sku ≠ [] := by
  constructor
  · intro positive none_offered
    rw [minPurchase_eq, none_offered] at positive
    exact lt_irrefl _ positive
  · intro offered
    obtain ⟨best, least, equal⟩ := minPurchase_cheapest offered
    rw [equal]
    exact offer_positive least.1

end Purchases

/-- A product has a cost that can be averaged, or a supplier price. -/
def Usable (pull : PullResult) (sku : String) : Prop :=
  (0 < totalQty pull sku ∧ 0 < totalCost pull sku) ∨
    ∃ sp ∈ pull.suppliers, sp.nomenclatureKey = sku ∧ 0 < sp.price

section Rows

variable {pull : PullResult} {sku : String}

theorem offersOf_ne_nil :
    offersOf pull sku ≠ [] ↔ ∃ sp ∈ pull.suppliers, sp.nomenclatureKey = sku ∧ 0 < sp.price := by
  simp [offersOf, List.filter_eq_nil_iff]

theorem costInput_sku {entry : String × ℚ × ℚ} {c : CostInput}
    (made : costInput pull entry = some c) : c.sku1c = entry.1 := by
  obtain ⟨sku, cost, qty⟩ := entry
  simp only [costInput, Option.ite_none_right_eq_some, Option.some.injEq] at made
  rw [← made.2]

theorem costInput_sourceAt {entry : String × ℚ × ℚ} {c : CostInput}
    (made : costInput pull entry = some c) (priced : 0 < (minPurchase pull entry.1).1) :
    c.purchaseSourceAt = some (minPurchase pull entry.1).2 := by
  obtain ⟨sku, cost, qty⟩ := entry
  simp only [costInput, Option.ite_none_right_eq_some, Option.some.injEq] at made
  rw [← made.2]
  exact if_pos priced

theorem costInput_isSome_iff {totals : ℚ × ℚ} :
    (costInput pull (sku, totals)).isSome = true ↔
      (0 < totals.2 ∧ 0 < totals.1) ∨ offersOf pull sku ≠ [] := by
  rw [← minPurchase_pos_iff]
  obtain ⟨cost, qty⟩ := totals
  by_cases averaged : 0 < qty ∧ 0 < cost
  · simp [costInput, averaged]
  · by_cases offered : 0 < (minPurchase pull sku).1
    · simp [costInput, offered]
    · simp [costInput, averaged, offered]

private theorem map_filterMap_sublist {α β γ : Type} {f : α → Option β} {g : β → γ} {h : α → γ}
    (same : ∀ a b, f a = some b → g b = h a) (l : List α) :
    ((l.filterMap f).map g).Sublist (l.map h) := by
  induction l with
  | nil => exact .slnil
  | cons a l ih =>
      rw [List.filterMap_cons, List.map_cons]
      cases made : f a with
      | none => exact .cons _ ih
      | some b =>
          rw [List.map_cons, same a b made]
          exact .cons_cons _ ih

variable (pull : PullResult) (offerByRef : String → Option String) (allowed : List String)
  (order : HashOrder) (period : String) (isPreview : Bool)

theorem nodup_cost_skus :
    ((pullToSnapshot pull offerByRef allowed order period isPreview).costs.map
      CostInput.sku1c).Nodup := by
  have entries : ((order.skus (bySku pull)).map Prod.fst).Nodup :=
    ((order.skus_perm _).map _).nodup_iff.mpr (bySku_distinct pull)
  exact entries.sublist (map_filterMap_sublist (fun _ _ => costInput_sku) _)

theorem mem_costs {c : CostInput} :
    c ∈ (pullToSnapshot pull offerByRef allowed order period isPreview).costs ↔
      costsOf pull c.sku1c ≠ [] ∧
        costInput pull (c.sku1c, totalCost pull c.sku1c, totalQty pull c.sku1c) = some c := by
  simp only [pullToSnapshot, List.mem_filterMap, (order.skus_perm _).mem_iff]
  constructor
  · intro given
    obtain ⟨entry, mem, made⟩ := given
    have own := costInput_sku made
    obtain ⟨sku, totals⟩ := entry
    obtain ⟨costed, equal⟩ := mem_bySku.mp mem
    rw [own]
    exact ⟨costed, equal ▸ made⟩
  · intro given
    obtain ⟨costed, made⟩ := given
    exact ⟨_, mem_bySku.mpr ⟨costed, rfl⟩, made⟩

theorem cost_row_iff (sku : String) :
    ((pullToSnapshot pull offerByRef allowed order period isPreview).costs.filter
        fun c => c.sku1c = sku).length = 1 ↔ costsOf pull sku ≠ [] ∧ Usable pull sku := by
  have made_iff : (costInput pull (sku, totalCost pull sku, totalQty pull sku)).isSome = true ↔
      Usable pull sku := by
    rw [costInput_isSome_iff, offersOf_ne_nil]
    rfl
  rw [← made_iff]
  constructor
  · intro one
    obtain ⟨c, only⟩ := List.length_eq_one_iff.mp one
    have listed := List.mem_filter.mp (only ▸ List.mem_cons_self (a := c) (l := []))
    obtain rfl : c.sku1c = sku := of_decide_eq_true listed.2
    obtain ⟨costed, made⟩ := (mem_costs pull offerByRef allowed order period isPreview).mp listed.1
    exact ⟨costed, by rw [made]; rfl⟩
  · intro given
    obtain ⟨costed, made⟩ := given
    obtain ⟨c, made⟩ := Option.isSome_iff_exists.mp made
    obtain rfl : c.sku1c = sku := costInput_sku made
    have mem := (mem_costs pull offerByRef allowed order period isPreview).mpr ⟨costed, made⟩
    have alone := Foundation.KeyedTable.filter_key_of_nodup
      (nodup_cost_skus pull offerByRef allowed order period isPreview) mem
    rw [alone, List.length_singleton]

/-- Every product with a usable cost or purchase price has exactly one row in the snapshot exactly
when every product that a supplier prices has a cost row as well. -/
theorem cost_rows_complete_iff :
    (∀ sku, Usable pull sku →
        ((pullToSnapshot pull offerByRef allowed order period isPreview).costs.filter
          fun c => c.sku1c = sku).length = 1) ↔
      ∀ sp ∈ pull.suppliers, 0 < sp.price →
        ∃ c ∈ pull.costs, analitToNom pull c.analyticKey = some sp.nomenclatureKey := by
  have costed_iff : ∀ sku, costsOf pull sku ≠ [] ↔
      ∃ c ∈ pull.costs, analitToNom pull c.analyticKey = some sku := by
    intro sku
    simp [costsOf, List.filter_eq_nil_iff]
  constructor
  · intro complete sp mem positive
    have usable : Usable pull sp.nomenclatureKey := Or.inr ⟨sp, mem, rfl, positive⟩
    have one := complete _ usable
    rw [cost_row_iff] at one
    exact (costed_iff _).mp one.1
  · intro costed sku usable
    rw [cost_row_iff]
    refine ⟨?_, usable⟩
    rcases usable with ⟨positive, -⟩ | ⟨sp, mem, rfl, positive⟩
    · intro none_left
      rw [totalQty, none_left] at positive
      exact lt_irrefl _ positive
    · exact (costed_iff _).mpr (costed sp mem positive)

end Rows

section Sample

def supplierOnly : PullResult where
  suppliers := [{ period := "2026-09-01T00:00:00", partnerKey := "partner-1",
                  nomenclatureKey := "sku-1", price := 100 }]

/-- The snapshot leaves the product with the supplier price out. -/
theorem supplier_price_left_out :
    Usable supplierOnly "sku-1" ∧
      (pullToSnapshot supplierOnly (fun _ => none) [] walkAsStored "2026-09-23T00:00:00"
        false).costs = [] :=
  ⟨Or.inr ⟨_, List.mem_cons_self, rfl, by decide⟩, rfl⟩

end Sample

end Scand.Inventory.CostRows
