/- path: Scand/Inventory/PreviewRows
   layer: results
   digest: The account that a preview gives of a request: every cost among the first is shown or warned
   about, the others are cut off with a warning, and the order of the request plays no part. -/

import Scand.Inventory.CanonicalForm
import Scand.Inventory.Preview
import Mathlib.Data.Finset.Dedup
import Mathlib.Data.Finset.Card
import Mathlib.Data.Finset.Lattice.Basic

set_option autoImplicit false
set_option relaxedAutoImplicit false

namespace Scand.Inventory.PreviewRows

open Scand.Inventory.Snapshot
open Scand.Inventory.CanonicalForm (sortBy_perm sortBy_eq_of_perm sortBy_sorted)
open Scand.Inventory.Preview

section Sorted

variable {α κ : Type} [LinearOrder κ] {key : α → κ} {less : α → α → Bool} {l : List α}

theorem mem_take_iff (by_key : ∀ a b, less a b = true ↔ key a < key b)
    (ascending : l.Pairwise fun a b => key a < key b) (n : Nat) (x : α) :
    x ∈ l.take n ↔ x ∈ l ∧ (l.filter fun y => less y x).length < n := by
  induction l generalizing n with
  | nil => simp
  | cons a l ih =>
      obtain ⟨least, rest⟩ := List.pairwise_cons.mp ascending
      cases n with
      | zero => simp
      | succ n =>
          have one_more (mem : x ∈ l) : ((a :: l).filter fun y => less y x).length =
              (l.filter fun y => less y x).length + 1 := by
            have smaller : less a x = true := (by_key a x).mpr (least x mem)
            rw [List.filter_cons, if_pos smaller, List.length_cons]
          rw [List.take_succ_cons, List.mem_cons, ih rest, List.mem_cons]
          constructor
          · rintro (rfl | ⟨mem, few⟩)
            · have none_less : (x :: l).filter (fun y => less y x) = [] := by
                rw [List.filter_eq_nil_iff]
                intro y mem smaller
                have below := (by_key y x).mp smaller
                rcases List.mem_cons.mp mem with rfl | later
                · exact lt_irrefl _ below
                · exact lt_asymm (least y later) below
              exact ⟨Or.inl rfl, none_less ▸ Nat.succ_pos n⟩
            · have more := one_more mem
              exact ⟨Or.inr mem, by omega⟩
          · rintro ⟨rfl | mem, few⟩
            · exact Or.inl rfl
            · have more := one_more mem
              exact Or.inr ⟨mem, by omega⟩

end Sorted

def rank : CostSource → Nat
  | .batch => 0
  | .purchase => 1
  | .dealer => 2

structure FirstPositive (row : CostInput) (source : CostSource) (v : ℚ) : Prop where
  stated : costOf row source = some v
  above : 0 < v
  earlier : ∀ other, rank other < rank source → ∀ w, costOf row other = some w → ¬ 0 < w

def Among (req : SnapshotRequest) (limit : Nat) (c : CostInput) : Prop :=
  c ∈ req.costs ∧ (req.costs.filter fun other => other.sku1c < c.sku1c).length < limit

def effectiveLimit (previewLimit : Nat) : Nat := if previewLimit = 0 then 100 else previewLimit

/-- A preview accounts for a request, with its own warnings behind the ones that it was given. -/
structure Accounted (req : SnapshotRequest) (limit : Nat) (extraWarnings own : List String)
    (preview : SnapshotPreview) : Prop where
  warnings : preview.warnings = extraWarnings ++ own
  ascending : preview.costPreview.Pairwise fun a b => a.sku1c < b.sku1c
  shown_iff : ∀ shown, shown ∈ preview.costPreview ↔ ∃ c source, Among req limit c ∧
    FirstPositive c source shown.selectedCost ∧ shown.sku1c = c.sku1c ∧ shown.costSource = source.text
  unselected : ∀ c, Among req limit c → (∀ source v, ¬ FirstPositive c source v) →
    own.count (notSelectedWarning c.sku1c) = 1
  warned : ∀ sku1c, notSelectedWarning sku1c ∈ own →
    ∃ c, Among req limit c ∧ c.sku1c = sku1c ∧ ∀ source v, ¬ FirstPositive c source v
  limited : own.count (limitWarning limit) = if limit < req.costs.length then 1 else 0
  skus : preview.skuCount = ((req.stocks.map StockInput.sku1c).toFinset ∪
    (req.costs.map CostInput.sku1c).toFinset).card
  warehouses : preview.warehouseCount = ((req.stocks.map StockInput.warehouseId).toFinset ∪
    (req.warehouses.map WarehouseInput.warehouseId).toFinset).card

section Selection

variable {row : CostInput} {v : ℚ} {source : CostSource}

theorem positive_eq_false_iff {cost : Option ℚ} :
    positive cost = false ↔ ∀ w, cost = some w → ¬ 0 < w := by
  cases cost <;> simp [positive]

theorem selectUnitCost_iff : selectUnitCost row = some (v, source) ↔ FirstPositive row source v := by
  constructor
  · intro selected
    obtain ⟨stated, above⟩ := costOf_of_selected selected
    refine ⟨stated, above, fun other before => positive_eq_false_iff.mp ?_⟩
    cases source with
    | batch => exact absurd before (Nat.not_lt_zero _)
    | purchase =>
        cases other with
        | batch =>
            by_contra kept
            have batch : positive row.batchAvgCost = true := Bool.eq_true_of_not_eq_false kept
            rw [selectUnitCost, if_pos batch] at selected
            obtain ⟨_, -, same⟩ := Option.map_eq_some_iff.mp selected
            cases same
        | purchase => exact absurd before (Nat.lt_irrefl _)
        | dealer => exact absurd before (by decide)
    | dealer =>
        obtain ⟨no_batch, no_purchase, -⟩ := selectUnitCost_dealer_iff.mp selected
        cases other with
        | batch => exact no_batch
        | purchase => exact no_purchase
        | dealer => exact absurd before (Nat.lt_irrefl _)
  · rintro ⟨stated, above, earlier⟩
    have skipped (other : CostSource) (before : rank other < rank source) :
        positive (costOf row other) = false := positive_eq_false_iff.mpr (earlier other before)
    have taken : positive (costOf row source) = true := positive_iff.mpr ⟨v, stated, above⟩
    cases source with
    | batch =>
        change positive row.batchAvgCost = true at taken
        change row.batchAvgCost = some v at stated
        rw [selectUnitCost, if_pos taken, stated, Option.map_some]
    | purchase =>
        have no_batch : positive row.batchAvgCost = false := skipped .batch (by decide)
        change positive row.purchaseCost = true at taken
        change row.purchaseCost = some v at stated
        rw [selectUnitCost, no_batch, if_neg Bool.false_ne_true, if_pos taken, stated, Option.map_some]
    | dealer =>
        exact selectUnitCost_dealer_iff.mpr
          ⟨skipped .batch (by decide), skipped .purchase (by decide), stated, above⟩

theorem selectUnitCost_eq_none_iff :
    selectUnitCost row = none ↔ ∀ source v, ¬ FirstPositive row source v := by
  constructor
  · intro absent source v first
    rw [selectUnitCost_iff.mpr first] at absent
    cases absent
  · intro absent
    cases selected : selectUnitCost row with
    | none => rfl
    | some choice => exact absurd (selectUnitCost_iff.mp selected) (absent choice.2 choice.1)

end Selection

section Texts

theorem notSelectedWarning_inj {sku1c sku1c' : String}
    (same : notSelectedWarning sku1c = notSelectedWarning sku1c') : sku1c = sku1c' := by
  have chars := congrArg String.toList same
  simp only [notSelectedWarning, String.toList_append] at chars
  exact String.toList_injective (List.append_cancel_left (List.append_cancel_right chars))

theorem head?_append {a : String} {c : Char} (b : String) (first : a.toList.head? = some c) :
    (a ++ b).toList.head? = some c := by
  rw [String.toList_append, List.head?_append, first, Option.some_or]

theorem head?_notSelectedWarning (sku1c : String) :
    (notSelectedWarning sku1c).toList.head? = some 'S' :=
  head?_append _ (head?_append _ rfl)

theorem head?_limitWarning (limit : Nat) : (limitWarning limit).toList.head? = some 'П' :=
  head?_append _ (head?_append _ rfl)

theorem mem_warnOf {text : Nat → String} {n : Nat} {w : String} (mem : w ∈ warnOf text n) : w = text n := by
  unfold warnOf at mem
  split at mem
  · cases mem
  · exact List.mem_singleton.mp mem

theorem head?_requestWarnings {req : SnapshotRequest} {w : String} (mem : w ∈ requestWarnings req) :
    w.toList.head? = some 'С' ∨ w.toList.head? = some 'Н' ∨ w.toList.head? = some 'Е' := by
  rw [requestWarnings] at mem
  rcases List.mem_append.mp mem with mem | mem
  · rcases List.mem_append.mp mem with mem | mem
    · rcases List.mem_append.mp mem with mem | mem
      · split at mem
        · rw [List.mem_singleton.mp mem]
          exact Or.inl rfl
        · cases mem
      · rw [mem_warnOf mem]
        exact Or.inr (Or.inl (head?_append _ (head?_append _ rfl)))
    · rw [mem_warnOf mem]
      exact Or.inr (Or.inl (head?_append _ (head?_append _ rfl)))
  · rw [mem_warnOf mem]
    exact Or.inr (Or.inr (head?_append _ (head?_append _ rfl)))

theorem notSelectedWarning_not_mem_request (req : SnapshotRequest) (sku1c : String) :
    notSelectedWarning sku1c ∉ requestWarnings req := by
  intro mem
  have first := head?_requestWarnings mem
  rw [head?_notSelectedWarning] at first
  revert first
  decide

theorem limitWarning_not_mem_request (req : SnapshotRequest) (limit : Nat) :
    limitWarning limit ∉ requestWarnings req := by
  intro mem
  have first := head?_requestWarnings mem
  rw [head?_limitWarning] at first
  revert first
  decide

theorem limitWarning_ne_notSelectedWarning (limit : Nat) (sku1c : String) :
    limitWarning limit ≠ notSelectedWarning sku1c := by
  intro same
  have first := head?_limitWarning limit
  rw [same, head?_notSelectedWarning] at first
  revert first
  decide

end Texts

section Rows

variable {req : SnapshotRequest} {limit : Nat} {c : CostInput}

def shownRows (req : SnapshotRequest) (limit : Nat) : List CostInput :=
  (sortBy (fun a b => a.sku1c < b.sku1c) req.costs).take limit

theorem less_sku_iff (a b : CostInput) : decide (a.sku1c < b.sku1c) = true ↔ a.sku1c < b.sku1c :=
  decide_eq_true_iff

theorem sorted_costs (distinct : (req.costs.map CostInput.sku1c).Nodup) :
    (sortBy (fun a b : CostInput => a.sku1c < b.sku1c) req.costs).Pairwise
      fun a b => a.sku1c < b.sku1c := by
  have sorted := sortBy_sorted less_sku_iff req.costs
  have apart : (sortBy (fun a b : CostInput => a.sku1c < b.sku1c) req.costs).Pairwise
      fun a b => a.sku1c ≠ b.sku1c := by
    rw [← List.pairwise_map]
    exact ((sortBy_perm _ req.costs).map CostInput.sku1c).nodup_iff.mpr distinct
  exact (sorted.and apart).imp fun both => lt_of_le_of_ne both.1 both.2

theorem mem_shownRows (distinct : (req.costs.map CostInput.sku1c).Nodup) :
    c ∈ shownRows req limit ↔ Among req limit c := by
  have perm := sortBy_perm (fun a b : CostInput => a.sku1c < b.sku1c) req.costs
  rw [shownRows, mem_take_iff less_sku_iff (sorted_costs distinct), Among, perm.mem_iff,
    (perm.filter _).length_eq]

theorem countDistinct_append (l l' : List String) :
    countDistinct (l ++ l') = (l.toFinset ∪ l'.toFinset).card := by
  rw [countDistinct, ← List.toFinset_append, List.card_toFinset]

theorem countDistinct_perm {l l' : List String} (perm : l.Perm l') : countDistinct l = countDistinct l' :=
  perm.dedup.length_eq

def unselectedRows (req : SnapshotRequest) (limit : Nat) : List CostInput :=
  (shownRows req limit).filter fun row => selectUnitCost row = none

theorem mem_unselectedRows (distinct : (req.costs.map CostInput.sku1c).Nodup) :
    c ∈ unselectedRows req limit ↔ Among req limit c ∧ ∀ source v, ¬ FirstPositive c source v := by
  rw [unselectedRows, List.mem_filter, mem_shownRows distinct, decide_eq_true_iff,
    selectUnitCost_eq_none_iff]

def ownWarnings (req : SnapshotRequest) (limit : Nat) : List String :=
  requestWarnings req ++ ((unselectedRows req limit).map (fun row => notSelectedWarning row.sku1c) ++
    if req.costs.length > limit then [limitWarning limit] else [])

theorem count_notSelected (req : SnapshotRequest) (limit : Nat) (sku1c : String) :
    (ownWarnings req limit).count (notSelectedWarning sku1c) =
      ((unselectedRows req limit).map fun row => notSelectedWarning row.sku1c).count
        (notSelectedWarning sku1c) := by
  have request := List.count_eq_zero.mpr (notSelectedWarning_not_mem_request req sku1c)
  have cut : (if req.costs.length > limit then [limitWarning limit] else []).count
      (notSelectedWarning sku1c) = 0 := by
    rw [List.count_eq_zero]
    intro mem
    split at mem
    · exact limitWarning_ne_notSelectedWarning limit sku1c (List.mem_singleton.mp mem).symm
    · cases mem
  rw [ownWarnings, List.count_append, List.count_append, request, cut]
  omega

theorem count_limit (req : SnapshotRequest) (limit : Nat) :
    (ownWarnings req limit).count (limitWarning limit) = if limit < req.costs.length then 1 else 0 := by
  have request := List.count_eq_zero.mpr (limitWarning_not_mem_request req limit)
  have rows : ((unselectedRows req limit).map fun row => notSelectedWarning row.sku1c).count
      (limitWarning limit) = 0 := by
    rw [List.count_eq_zero]
    intro mem
    obtain ⟨row, -, same⟩ := List.mem_map.mp mem
    exact limitWarning_ne_notSelectedWarning limit row.sku1c same.symm
  rw [ownWarnings, List.count_append, List.count_append, request, rows]
  split
  · simp
  · simp

theorem nodup_notSelected (distinct : (req.costs.map CostInput.sku1c).Nodup) :
    ((unselectedRows req limit).map fun row => notSelectedWarning row.sku1c).Nodup := by
  have ascending : (unselectedRows req limit).Pairwise fun a b => a.sku1c < b.sku1c :=
    ((sorted_costs distinct).sublist (List.take_sublist _ _)).filter _
  rw [List.Nodup, List.pairwise_map]
  exact ascending.imp fun before same => ne_of_lt before (notSelectedWarning_inj same)

theorem mem_costPreview (distinct : (req.costs.map CostInput.sku1c).Nodup) (shown : CostPreview) :
    shown ∈ (shownRows req limit).filterMap costPreview ↔ ∃ c source, Among req limit c ∧
      FirstPositive c source shown.selectedCost ∧ shown.sku1c = c.sku1c ∧
      shown.costSource = source.text := by
  rw [List.mem_filterMap]
  constructor
  · rintro ⟨c, mem, chosen⟩
    obtain ⟨⟨v, source⟩, selected, rfl⟩ := Option.map_eq_some_iff.mp chosen
    exact ⟨c, source, (mem_shownRows distinct).mp mem, selectUnitCost_iff.mp selected, rfl, rfl⟩
  · rintro ⟨c, source, among, first, sku, text⟩
    refine ⟨c, (mem_shownRows distinct).mpr among, ?_⟩
    rw [costPreview, selectUnitCost_iff.mpr first, Option.map_some, Option.some.injEq]
    dsimp only
    rw [← sku, ← text]

theorem ascending_costPreview (distinct : (req.costs.map CostInput.sku1c).Nodup) :
    ((shownRows req limit).filterMap costPreview).Pairwise fun a b => a.sku1c < b.sku1c := by
  have named : ∀ {c shown}, costPreview c = some shown → shown.sku1c = c.sku1c := by
    intro c shown chosen
    obtain ⟨_, -, rfl⟩ := Option.map_eq_some_iff.mp chosen
    rfl
  rw [List.pairwise_filterMap]
  refine ((sorted_costs distinct).sublist (List.take_sublist _ _)).imp fun before a from_a b from_b => ?_
  rw [named from_a, named from_b]
  exact before

theorem accounted (previewLimit : Nat) (extraWarnings : List String)
    (distinct : (req.costs.map CostInput.sku1c).Nodup) :
    Accounted req (effectiveLimit previewLimit) extraWarnings
      (ownWarnings req (effectiveLimit previewLimit)) (buildPreview req previewLimit extraWarnings) where
  warnings := by
    rw [ownWarnings, ← List.append_assoc, ← List.append_assoc]
    rfl
  ascending := ascending_costPreview distinct
  shown_iff := mem_costPreview distinct
  unselected := by
    intro c among unselected
    have mem := (mem_unselectedRows distinct).mpr ⟨among, unselected⟩
    rw [count_notSelected]
    exact List.count_eq_one_of_mem (nodup_notSelected distinct)
      (List.mem_map_of_mem (f := fun row => notSelectedWarning row.sku1c) mem)
  warned := by
    intro sku1c mem
    have counted := List.count_pos_iff.mpr mem
    rw [count_notSelected] at counted
    obtain ⟨c, in_rows, same⟩ := List.mem_map.mp (List.count_pos_iff.mp counted)
    obtain ⟨among, unselected⟩ := (mem_unselectedRows distinct).mp in_rows
    exact ⟨c, among, notSelectedWarning_inj same, unselected⟩
  limited := count_limit req _
  skus := countDistinct_append _ _
  warehouses := countDistinct_append _ _

end Rows

section Order

variable {req req' : SnapshotRequest}

/-- Two requests with the same rows, in any order. -/
structure SameRows (req req' : SnapshotRequest) : Prop where
  batchId : req'.batchId = req.batchId
  stocks : req.stocks.Perm req'.stocks
  costs : req.costs.Perm req'.costs
  warehouses : req.warehouses.Perm req'.warehouses

theorem SameRows.requestWarnings_eq (same : SameRows req req') :
    requestWarnings req = requestWarnings req' := by
  have stockSkus := same.stocks.map StockInput.sku1c
  have costSkus := same.costs.map CostInput.sku1c
  have unnamed := countDistinct_perm ((same.stocks.filter fun s => s.offerId.getD "" = "").map StockInput.sku1c)
  have uncosted : countDistinct ((req.stocks.map StockInput.sku1c).filter
      (· ∉ req.costs.map CostInput.sku1c)) = countDistinct ((req'.stocks.map StockInput.sku1c).filter
      (· ∉ req'.costs.map CostInput.sku1c)) := by
    simp only [costSkus.mem_iff]
    exact countDistinct_perm (stockSkus.filter _)
  have unstocked : countDistinct ((req.costs.map CostInput.sku1c).filter
      (· ∉ req.stocks.map StockInput.sku1c)) = countDistinct ((req'.costs.map CostInput.sku1c).filter
      (· ∉ req'.stocks.map StockInput.sku1c)) := by
    simp only [stockSkus.mem_iff]
    exact countDistinct_perm (costSkus.filter _)
  have no_stocks : req.stocks.isEmpty = req'.stocks.isEmpty := same.stocks.isEmpty_eq
  have no_costs : req.costs.isEmpty = req'.costs.isEmpty := same.costs.isEmpty_eq
  simp only [requestWarnings, unnamed, uncosted, unstocked, no_stocks, no_costs]

theorem SameRows.buildPreview_eq (same : SameRows req req')
    (distinct : (req.costs.map CostInput.sku1c).Nodup) (previewLimit : Nat) (extraWarnings : List String) :
    buildPreview req previewLimit extraWarnings = buildPreview req' previewLimit extraWarnings := by
  have sorted : sortBy (fun a b : CostInput => a.sku1c < b.sku1c) req.costs =
      sortBy (fun a b => a.sku1c < b.sku1c) req'.costs :=
    sortBy_eq_of_perm less_sku_iff same.costs distinct
  have skus := countDistinct_perm
    ((same.stocks.map StockInput.sku1c).append (same.costs.map CostInput.sku1c))
  have warehouses := countDistinct_perm
    ((same.stocks.map StockInput.warehouseId).append (same.warehouses.map WarehouseInput.warehouseId))
  simp only [buildPreview, same.batchId, same.stocks.length_eq, same.costs.length_eq, sorted, skus,
    warehouses, same.requestWarnings_eq]

end Order

/-- A preview accounts for every cost of its request, and tells two orders of the same rows apart
nowhere. -/
theorem buildPreview_accounted (req : SnapshotRequest) (previewLimit : Nat) (extraWarnings : List String)
    (distinct : (req.costs.map CostInput.sku1c).Nodup) :
    (∃ own, Accounted req (effectiveLimit previewLimit) extraWarnings own
      (buildPreview req previewLimit extraWarnings)) ∧
      ∀ stocks costs warehouses, req.stocks.Perm stocks → req.costs.Perm costs →
        req.warehouses.Perm warehouses →
        buildPreview { req with stocks := stocks, costs := costs, warehouses := warehouses } previewLimit
          extraWarnings = buildPreview req previewLimit extraWarnings := by
  refine ⟨⟨_, accounted previewLimit extraWarnings distinct⟩, ?_⟩
  intro stocks costs warehouses stocks_perm costs_perm warehouses_perm
  have same : SameRows req { req with stocks := stocks, costs := costs, warehouses := warehouses } :=
    ⟨rfl, stocks_perm, costs_perm, warehouses_perm⟩
  exact (same.buildPreview_eq distinct previewLimit extraWarnings).symm

theorem buildPreview_accounted_three :
    let costs : List CostInput := [{ sku1c := "c", batchAvgCost := some 3 },
      { sku1c := "b", dealerCost := some 0 },
      { sku1c := "a", batchAvgCost := some 0, purchaseCost := some 5, dealerCost := some 4 }]
    let req : SnapshotRequest := {
      batchId := "batch-1", measuredAt := "2026-09-23T15:08:23Z", costs := costs }
    (req.costs.map CostInput.sku1c).Nodup ∧
      (∃ own, Accounted req (effectiveLimit 2) [] own (buildPreview req 2 [])) ∧
      buildPreview { req with costs := costs.reverse } 2 [] = buildPreview req 2 [] :=
  ⟨by decide, (buildPreview_accounted _ 2 [] (by decide)).1,
    (buildPreview_accounted _ 2 [] (by decide)).2 _ _ _ (.refl _) (List.reverse_perm _).symm (.refl _)⟩

end Scand.Inventory.PreviewRows
