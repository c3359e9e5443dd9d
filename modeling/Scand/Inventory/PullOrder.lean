/- path: Scand/Inventory/PullOrder
   layer: results
   digest: When the canonical JSON of a snapshot does not depend on the order in which the rows of its
   pull arrived. -/

import Scand.Inventory.CostRows
import Scand.Inventory.Reimport

set_option autoImplicit false
set_option relaxedAutoImplicit false

namespace Scand.Inventory.PullOrder

open Scand.Foundation.Accumulate
open Scand.Inventory.CanonicalForm
open Scand.Inventory.CostRows
open Scand.Inventory.ImportSnapshot
open Scand.Inventory.PullToSnapshot
open Scand.Inventory.Reimport
open Scand.Inventory.Snapshot
open Scand.Ka2.Pull

/-- The same rows, as parallel workers may append them in another order. -/
structure Reordered (p q : PullResult) : Prop where
  warehouses : q.warehouses = p.warehouses
  analytics : q.analytics = p.analytics
  stocks : p.stocks.Perm q.stocks
  costs : p.costs.Perm q.costs
  suppliers : p.suppliers.Perm q.suppliers

/-- The cheapest offers of a product that has a cost row are all of one date. -/
def OneCheapestDate (pull : PullResult) : Prop :=
  ∀ sku, costsOf pull sku ≠ [] → ∀ x y, Cheapest (offersOf pull sku) x →
    Cheapest (offersOf pull sku) y → x.period = y.period

def KeysWithoutBar (pull : PullResult) : Prop :=
  ∀ s ∈ pull.stocks, '|' ∉ s.nomenclatureKey.toList ∧ '|' ∉ s.warehouseKey.toList

section Keys

private theorem bar_split {a b c d : List Char} (bar_a : '|' ∉ a) (bar_c : '|' ∉ c)
    (same : a ++ '|' :: b = c ++ '|' :: d) : a = c ∧ b = d := by
  induction a generalizing c with
  | nil =>
      cases c with
      | nil => exact ⟨rfl, by simpa using same⟩
      | cons x c =>
          simp only [List.nil_append, List.cons_append, List.cons.injEq] at same
          exact absurd (same.1 ▸ List.mem_cons_self) bar_c
  | cons x a ih =>
      cases c with
      | nil =>
          simp only [List.nil_append, List.cons_append, List.cons.injEq] at same
          exact absurd (same.1 ▸ List.mem_cons_self) bar_a
      | cons y c =>
          simp only [List.cons_append, List.cons.injEq] at same
          obtain ⟨rfl, tails⟩ := same
          obtain ⟨rfl, rest⟩ := ih (fun mem => bar_a (List.mem_cons_of_mem _ mem))
            (fun mem => bar_c (List.mem_cons_of_mem _ mem)) tails
          exact ⟨rfl, rest⟩

theorem stockKey_inj {s s' : StockBalance} (bar : '|' ∉ s.nomenclatureKey.toList)
    (bar' : '|' ∉ s'.nomenclatureKey.toList) (same : stockKey s = stockKey s') :
    s.nomenclatureKey = s'.nomenclatureKey ∧ s.warehouseKey = s'.warehouseKey := by
  have chars := congrArg String.toList same
  simp only [stockKey, String.toList_append] at chars
  have bars : s.nomenclatureKey.toList ++ '|' :: s.warehouseKey.toList =
      s'.nomenclatureKey.toList ++ '|' :: s'.warehouseKey.toList := by
    simpa using chars
  obtain ⟨left, right⟩ := bar_split bar bar' bars
  exact ⟨String.toList_inj.mp left, String.toList_inj.mp right⟩

end Keys

section Stocks

variable {p q : PullResult} (offerByRef : String → Option String) (allowed : List String)

theorem byKey_perm (reordered : Reordered p q) (bars : KeysWithoutBar p) :
    (byKey p offerByRef allowed).Perm (byKey q offerByRef allowed) := by
  have fresh : freshStock q offerByRef = freshStock p offerByRef := by
    funext s
    simp only [freshStock, reordered.warehouses]
  unfold byKey
  rw [fresh]
  apply accumulate_perm (reordered.stocks.filter _)
  · intro a mem_a b mem_b same
    have bar_a := (bars a (List.mem_filter.mp mem_a).1).1
    have bar_b := (bars b (List.mem_filter.mp mem_b).1).1
    obtain ⟨nomenclature, warehouse⟩ := stockKey_inj bar_a bar_b same
    simp only [freshStock, nomenclature, warehouse]
  · intro a b e
    simp only [addStock, toInt64, Int.bmod_add_bmod, add_assoc, add_comm (truncate a.quantity)]

theorem nodup_stock_keys (pull : PullResult) (order : HashOrder) (period : String)
    (isPreview : Bool) :
    ((pullToSnapshot pull offerByRef allowed order period isPreview).stocks.map
      StockInput.key).Nodup := by
  have joined : (byKey pull offerByRef allowed).map
        (fun entry => entry.2.sku1c ++ "|" ++ entry.2.warehouseId) =
      (byKey pull offerByRef allowed).map Prod.fst := by
    have by_value : (byKey pull offerByRef allowed).map
          (fun entry => entry.2.sku1c ++ "|" ++ entry.2.warehouseId) =
        (creating pull allowed).map stockKey :=
      accumulate_map (by intro _ _ _; rfl) (pull.stocks.filter (eligible allowed)) []
    have by_key : (byKey pull offerByRef allowed).map Prod.fst =
        (creating pull allowed).map stockKey :=
      accumulate_map (by intro _ _ _; rfl) (pull.stocks.filter (eligible allowed)) []
    exact by_value.trans by_key.symm
  have distinct : ((byKey pull offerByRef allowed).map Prod.fst).Nodup :=
    nodup_keys_accumulate _ List.nodup_nil
  have walked := ((order.stocks_perm (byKey pull offerByRef allowed)).map
    fun entry => entry.2.sku1c ++ "|" ++ entry.2.warehouseId).nodup_iff.mpr (joined ▸ distinct)
  simp only [pullToSnapshot, List.map_map]
  have keyed : (order.stocks (byKey pull offerByRef allowed)).map
        (fun entry => entry.2.sku1c ++ "|" ++ entry.2.warehouseId) =
      ((order.stocks (byKey pull offerByRef allowed)).map (StockInput.key ∘ Prod.snd)).map
        fun key => key.1 ++ "|" ++ key.2 := by
    rw [List.map_map]
    rfl
  rw [keyed] at walked
  exact walked.of_map _

end Stocks

section Costs

variable {p q : PullResult} {sku : String}

theorem analitToNom_eq (reordered : Reordered p q) : analitToNom q = analitToNom p := by
  funext key
  simp only [analitToNom, reordered.analytics]

theorem costsOf_perm (reordered : Reordered p q) (sku : String) :
    (costsOf p sku).Perm (costsOf q sku) := by
  unfold costsOf
  rw [analitToNom_eq reordered]
  exact reordered.costs.filter _

theorem offersOf_perm (reordered : Reordered p q) (sku : String) :
    (offersOf p sku).Perm (offersOf q sku) :=
  reordered.suppliers.filter _

theorem cheapest_of_perm {rows rows' : List SupplierPrice} (perm : rows.Perm rows')
    {x : SupplierPrice} (least : Cheapest rows x) : Cheapest rows' x :=
  ⟨perm.mem_iff.mp least.1, fun y mem => least.2 y (perm.mem_iff.mpr mem)⟩

theorem minPurchase_eq_of_reordered (reordered : Reordered p q) (dated : OneCheapestDate p)
    (costed : costsOf p sku ≠ []) : minPurchase p sku = minPurchase q sku := by
  have perm := offersOf_perm reordered sku
  by_cases offered : offersOf p sku = []
  · have none_left : offersOf q sku = [] := by
      rw [offered] at perm
      exact List.nil_perm.mp perm
    rw [minPurchase_eq, minPurchase_eq, offered, none_left]
  · have offered' : offersOf q sku ≠ [] := by
      intro none_left
      rw [none_left] at perm
      exact offered (List.perm_nil.mp perm)
    obtain ⟨x, least_x, first⟩ := minPurchase_cheapest offered
    obtain ⟨y, least_y, second⟩ := minPurchase_cheapest offered'
    have least_y' := cheapest_of_perm perm.symm least_y
    have price : x.price = y.price :=
      le_antisymm (least_x.2 y least_y'.1) (least_y'.2 x least_x.1)
    rw [first, second, price, dated sku costed x y least_x least_y']

theorem bySku_perm (reordered : Reordered p q) : (bySku p).Perm (bySku q) := by
  apply (List.perm_ext_iff_of_nodup ((bySku_distinct p).of_map Prod.fst)
    ((bySku_distinct q).of_map Prod.fst)).mpr
  intro entry
  obtain ⟨sku, totals⟩ := entry
  have perm := costsOf_perm reordered sku
  have cost : totalCost p sku = totalCost q sku := (perm.map _).sum_eq
  have qty : totalQty p sku = totalQty q sku := (perm.map _).sum_eq
  have nil_iff : costsOf p sku = [] ↔ costsOf q sku = [] := by
    constructor
    · intro none_left
      exact List.nil_perm.mp (none_left ▸ perm)
    · intro none_left
      exact List.perm_nil.mp (none_left ▸ perm)
  rw [mem_bySku, mem_bySku, cost, qty, Ne, nil_iff]

end Costs

section Requests

variable (offerByRef : String → Option String) (allowed : List String) (order : HashOrder)
  (period : String) (isPreview : Bool)

private theorem costs_perm {p q : PullResult} {order' : HashOrder} (reordered : Reordered p q)
    (dated : OneCheapestDate p) :
    (pullToSnapshot p offerByRef allowed order period isPreview).costs.Perm
      (pullToSnapshot q offerByRef allowed order' period isPreview).costs := by
  have made : (bySku p).filterMap (costInput p) = (bySku p).filterMap (costInput q) := by
    apply List.filterMap_congr
    intro entry mem
    obtain ⟨sku, totals⟩ := entry
    simp only [costInput,
      minPurchase_eq_of_reordered reordered dated (mem_bySku.mp mem).1]
  have left : ((order.skus (bySku p)).filterMap (costInput p)).Perm
      ((bySku p).filterMap (costInput q)) := made ▸ (order.skus_perm (bySku p)).filterMap _
  have right : ((order'.skus (bySku q)).filterMap (costInput q)).Perm
      ((bySku p).filterMap (costInput q)) :=
    ((order'.skus_perm (bySku q)).trans (bySku_perm reordered).symm).filterMap _
  exact left.trans right.symm

private theorem sameContent_of_reordered {p q : PullResult} (order' : HashOrder)
    (reordered : Reordered p q) (bars : KeysWithoutBar p) (dated : OneCheapestDate p) :
    SameContent (pullToSnapshot p offerByRef allowed order period isPreview)
      (pullToSnapshot q offerByRef allowed order' period isPreview) where
  batchId := rfl
  measuredAt := rfl
  mode := rfl
  stocks := by
    have left := order.stocks_perm (byKey p offerByRef allowed)
    have right := order'.stocks_perm (byKey q offerByRef allowed)
    have rows := (left.trans ((byKey_perm offerByRef allowed reordered bars).trans right.symm)).map
      Prod.snd
    exact rows.map normalStock
  warehouses := by
    simp only [pullToSnapshot, snapshotWarehouses, reordered.warehouses]
    exact .refl _
  costs := (costs_perm offerByRef allowed order period isPreview reordered dated).map normalCost

private theorem nonEmpty_some_inj {a b : String} (same : nonEmpty (some a) = nonEmpty (some b)) :
    a = b := by
  by_cases blank_a : a = "" <;> by_cases blank_b : b = "" <;>
    simp_all [nonEmpty, Option.filter]

private theorem exists_dated_by {p : PullResult} {sku : String} (costed : costsOf p sku ≠ [])
    {x : SupplierPrice} (least : Cheapest (offersOf p sku) x) :
    ∃ q, Reordered p q ∧ ∀ order', ∃ c ∈ (pullToSnapshot q offerByRef allowed order' period
      isPreview).costs, c.sku1c = sku ∧ c.purchaseSourceAt = some x.period := by
  obtain ⟨listed, own⟩ := List.mem_filter.mp least.1
  obtain ⟨before, after, split_at⟩ := List.append_of_mem listed
  have moved : p.suppliers.Perm (x :: (before ++ after)) := split_at ▸ List.perm_middle
  refine ⟨{ p with suppliers := x :: (before ++ after) },
    ⟨rfl, rfl, .refl _, .refl _, moved⟩, fun order' => ?_⟩
  generalize reordered_eq : ({ p with suppliers := x :: (before ++ after) } : PullResult) = q
  have offers : offersOf q sku = x :: (before ++ after).filter
      fun sp => sp.nomenclatureKey = sku ∧ 0 < sp.price := by
    rw [← reordered_eq, offersOf, List.filter_cons, if_pos own]
  have first : minPurchase q sku = (x.price, x.period) := by
    apply minPurchase_first offers
    intro y mem
    exact least.2 y ((moved.filter _).mem_iff.mpr (by
      rw [List.filter_cons, if_pos own]
      exact List.mem_cons_of_mem _ mem))
  have positive : 0 < (minPurchase q sku).1 := by
    rw [first]
    exact offer_positive least.1
  have costed' : costsOf q sku ≠ [] := by
    rw [← reordered_eq]
    exact costed
  have made : (costInput q (sku, totalCost q sku, totalQty q sku)).isSome = true :=
    costInput_isSome_iff.mpr (Or.inr (minPurchase_pos_iff.mp positive))
  obtain ⟨c, made⟩ := Option.isSome_iff_exists.mp made
  have own_sku : c.sku1c = sku := costInput_sku made
  refine ⟨c, (mem_costs q offerByRef allowed order' period isPreview).mpr ?_, own_sku, ?_⟩
  · rw [own_sku]
    exact ⟨costed', made⟩
  · rw [costInput_sourceAt made positive, first]

/-- Once the first request is imported, the second one is answered as its duplicate and changes
nothing, after any further calls. -/
def RecognisedAgain (r r' : SnapshotRequest) : Prop :=
  ∀ pf tenantId db calls,
    (importSnapshot pf tenantId r db).result.value.map ImportResult.status = some .imported →
    (importSnapshot pf tenantId r' (importCalls pf calls
        (importSnapshot pf tenantId r db).db)).result = duplicateOf r ∧
      (importSnapshot pf tenantId r' (importCalls pf calls
        (importSnapshot pf tenantId r db).db)).db =
        importCalls pf calls (importSnapshot pf tenantId r db).db

/-- Every order in which the rows of a pull arrive, and every order of the hash maps, gives the same
canonical JSON and so a duplicate, exactly when no product with a cost row has equally cheap offers of
different dates. -/
theorem canonical_order_independent_iff (p : PullResult) (bars : KeysWithoutBar p) :
    (∀ q order', Reordered p q →
        canonicalJson (pullToSnapshot p offerByRef allowed order period isPreview) =
            canonicalJson (pullToSnapshot q offerByRef allowed order' period isPreview) ∧
          RecognisedAgain (pullToSnapshot p offerByRef allowed order period isPreview)
            (pullToSnapshot q offerByRef allowed order' period isPreview)) ↔
      OneCheapestDate p := by
  constructor
  · intro independent sku costed x y least_x least_y
    obtain ⟨qx, reordered_x, row_x⟩ := exists_dated_by offerByRef allowed period isPreview costed
      least_x
    obtain ⟨qy, reordered_y, row_y⟩ := exists_dated_by offerByRef allowed period isPreview costed
      least_y
    have same := (independent qx order reordered_x).1.symm.trans
      (independent qy order reordered_y).1
    obtain ⟨cx, mem_x, sku_x, date_x⟩ := row_x order
    obtain ⟨cy, mem_y, sku_y, date_y⟩ := row_y order
    have listed := (sameContent_of_canonicalJson same).costs.mem_iff.mp
      (List.mem_map.mpr ⟨cx, mem_x, rfl⟩)
    obtain ⟨c, mem_c, normal⟩ := List.mem_map.mp listed
    have sku_c : c.sku1c = cy.sku1c := by
      have kept : (normalCost c).sku1c = (normalCost cx).sku1c := congrArg CostInput.sku1c normal
      exact kept.trans (sku_x.trans sku_y.symm)
    obtain rfl : c = cy := List.inj_on_of_nodup_map
      (nodup_cost_skus qy offerByRef allowed order period isPreview) mem_c mem_y sku_c
    have dates : (normalCost c).purchaseSourceAt = (normalCost cx).purchaseSourceAt :=
      congrArg CostInput.purchaseSourceAt normal
    simp only [normalCost, date_x, date_y] at dates
    exact (nonEmpty_some_inj dates).symm
  · intro dated q order' reordered
    have content := sameContent_of_reordered offerByRef allowed order period isPreview order'
      reordered bars dated
    have warehouses := congrArg (fun w => snapshotWarehouses { p with warehouses := w } allowed)
      reordered.warehouses.symm
    have same := canonicalJson_of_sameContent content
      (nodup_stock_keys offerByRef allowed p order period isPreview)
      (nodup_cost_skus p offerByRef allowed order period isPreview) (Or.inl warehouses)
    refine ⟨same, ?_⟩
    intro pf tenantId db calls imported
    exact duplicate_of_canonicalJson imported calls same

end Requests

section Sample

def batchCost : CostBalance where
  analyticKey := "analytic-1"
  organizationKey := "organization-1"
  batchKey := "batch-1"
  quantity := 1
  cost := 50

def offerOn (period : String) : SupplierPrice where
  period := period
  partnerKey := "partner-1"
  nomenclatureKey := "sku-1"
  price := 100

def twoOffers (first second : String) : PullResult where
  analytics := [{ refKey := "analytic-1", nomenclatureKey := "sku-1" }]
  costs := [batchCost]
  suppliers := [offerOn first, offerOn second]

private theorem twoOffers_swapped (first second : String) :
    Reordered (twoOffers first second) (twoOffers second first) where
  warehouses := rfl
  analytics := rfl
  stocks := .refl _
  costs := .refl _
  suppliers := .swap _ _ _

private theorem twoOffers_bars (first second : String) :
    KeysWithoutBar (twoOffers first second) := by
  intro s mem
  cases mem

private def datesOf (first second : String) : List (Option String) :=
  (pullToSnapshot (twoOffers first second) (fun _ => none) [] walkAsStored
    "2026-09-23T00:00:00" false).costs.map CostInput.purchaseSourceAt

/-- Two offers of one price and different dates: the digest depends on which one came first. -/
theorem tied_offers_reordered :
    Reordered (twoOffers "2026-09-01T00:00:00" "2026-09-02T00:00:00")
        (twoOffers "2026-09-02T00:00:00" "2026-09-01T00:00:00") ∧
      KeysWithoutBar (twoOffers "2026-09-01T00:00:00" "2026-09-02T00:00:00") ∧
      canonicalJson (pullToSnapshot (twoOffers "2026-09-01T00:00:00" "2026-09-02T00:00:00")
          (fun _ => none) [] walkAsStored "2026-09-23T00:00:00" false) ≠
        canonicalJson (pullToSnapshot (twoOffers "2026-09-02T00:00:00" "2026-09-01T00:00:00")
          (fun _ => none) [] walkAsStored "2026-09-23T00:00:00" false) := by
  refine ⟨twoOffers_swapped _ _, twoOffers_bars _ _, ?_⟩
  intro same
  have rows := (sameContent_of_canonicalJson same).costs.map CostInput.purchaseSourceAt
  have dates : ((datesOf "2026-09-01T00:00:00" "2026-09-02T00:00:00").map nonEmpty).Perm
      ((datesOf "2026-09-02T00:00:00" "2026-09-01T00:00:00").map nonEmpty) := by
    rw [List.map_map, List.map_map] at rows
    rw [datesOf, datesOf, List.map_map, List.map_map]
    exact rows
  exact absurd dates (by decide +kernel)

/-- Two batches of a product, which two warehouses hold, and the offers of two partners on one day. -/
def twoPartners : PullResult where
  analytics := [{ refKey := "analytic-1", nomenclatureKey := "sku-1" }]
  stocks := [
    { nomenclatureKey := "sku-1", characteristicKey := "", warehouseKey := "wh-1", quantity := 5 },
    { nomenclatureKey := "sku-1", characteristicKey := "", warehouseKey := "wh-2", quantity := 7 }]
  costs := [batchCost, { batchCost with batchKey := "batch-2", cost := 70 }]
  suppliers := [offerOn "2026-09-01T00:00:00",
    { offerOn "2026-09-01T00:00:00" with partnerKey := "partner-2" }]

def twoPartnersReversed : PullResult where
  analytics := twoPartners.analytics
  stocks := twoPartners.stocks.reverse
  costs := twoPartners.costs.reverse
  suppliers := twoPartners.suppliers.reverse

def walkBackwards : HashOrder where
  stocks entries := entries.reverse
  stocks_perm := List.reverse_perm
  skus entries := entries.reverse
  skus_perm := List.reverse_perm

theorem canonical_order_independent_one_date :
    twoPartners.stocks ≠ twoPartnersReversed.stocks ∧
      twoPartners.suppliers ≠ twoPartnersReversed.suppliers ∧
      canonicalJson (pullToSnapshot twoPartners (fun _ => none) [] walkAsStored
          "2026-09-23T00:00:00" false) =
        canonicalJson (pullToSnapshot twoPartnersReversed (fun _ => none) [] walkBackwards
          "2026-09-23T00:00:00" false) ∧
      RecognisedAgain
        (pullToSnapshot twoPartners (fun _ => none) [] walkAsStored "2026-09-23T00:00:00" false)
        (pullToSnapshot twoPartnersReversed (fun _ => none) [] walkBackwards
          "2026-09-23T00:00:00" false) := by
  have bars : KeysWithoutBar twoPartners := by
    intro s mem
    simp only [twoPartners, List.mem_cons, List.not_mem_nil, or_false] at mem
    rcases mem with rfl | rfl <;>
      · dsimp only
        decide
  have dated : OneCheapestDate twoPartners := by
    have one_day : ∀ x ∈ twoPartners.suppliers, x.period = "2026-09-01T00:00:00" := by
      intro x mem
      simp only [twoPartners, List.mem_cons, List.not_mem_nil, or_false] at mem
      rcases mem with rfl | rfl <;> rfl
    intro sku _ x y least_x least_y
    rw [one_day x (List.mem_filter.mp least_x.1).1, one_day y (List.mem_filter.mp least_y.1).1]
  have reordered : Reordered twoPartners twoPartnersReversed := {
    warehouses := rfl
    analytics := rfl
    stocks := (List.reverse_perm _).symm
    costs := (List.reverse_perm _).symm
    suppliers := (List.reverse_perm _).symm }
  have stocks : twoPartners.stocks.map StockBalance.warehouseKey ≠
      twoPartnersReversed.stocks.map StockBalance.warehouseKey := by decide
  have partners : twoPartners.suppliers.map SupplierPrice.partnerKey ≠
      twoPartnersReversed.suppliers.map SupplierPrice.partnerKey := by decide
  refine ⟨fun same => stocks (by rw [same]), fun same => partners (by rw [same]), ?_⟩
  exact (canonical_order_independent_iff (fun _ => none) [] walkAsStored "2026-09-23T00:00:00"
    false twoPartners bars).mpr dated twoPartnersReversed walkBackwards reordered

end Sample

end Scand.Inventory.PullOrder
