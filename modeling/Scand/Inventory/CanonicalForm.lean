/- path: Scand/Inventory/CanonicalForm
   layer: results
   digest: What two requests with the same canonical JSON have in common: everything but the order of
   their rows, the warehouse names of their stocks and empty optional texts. -/

import Scand.Inventory.ImportSnapshot
import Mathlib.Data.Prod.Lex
import Mathlib.Data.String.Basic

set_option autoImplicit false
set_option relaxedAutoImplicit false

namespace Scand.Inventory.CanonicalForm

open Scand.Foundation.JsonValue (Json)
open Scand.Inventory.Snapshot
open Scand.Inventory.ImportSnapshot (nonEmpty)

section Sorting

variable {α β κ : Type} [LinearOrder κ]

theorem sortBy_perm (less : α → α → Bool) (l : List α) : (sortBy less l).Perm l :=
  List.mergeSort_perm _ _

theorem sortBy_sorted {key : α → κ} {less : α → α → Bool}
    (by_key : ∀ a b, less a b = true ↔ key a < key b) (l : List α) :
    (sortBy less l).Pairwise fun a b => key a ≤ key b := by
  have le_iff : ∀ a b, (!less b a) = true ↔ key a ≤ key b := by
    intro a b
    rw [Bool.not_eq_true', ← Bool.not_eq_true, by_key, not_lt]
  have sorted : (sortBy less l).Pairwise fun a b => (!less b a) = true := by
    apply List.pairwise_mergeSort
    · intro a b c first second
      rw [le_iff] at first second ⊢
      exact first.trans second
    · intro a b
      rw [Bool.or_eq_true, le_iff, le_iff]
      exact le_total _ _
  exact sorted.imp fun {a b} => (le_iff a b).mp

theorem sortBy_eq_of_perm {key : α → κ} {less : α → α → Bool}
    (by_key : ∀ a b, less a b = true ↔ key a < key b) {l l' : List α} (perm : l.Perm l')
    (distinct : (l.map key).Nodup) : sortBy less l = sortBy less l' := by
  apply List.Perm.eq_of_pairwise ?_ (sortBy_sorted by_key l) (sortBy_sorted by_key l')
  · exact (sortBy_perm less l).trans (perm.trans (sortBy_perm less l').symm)
  · intro a b mem_a mem_b first second
    have in_a : a ∈ l := (sortBy_perm less l).mem_iff.mp mem_a
    have in_b : b ∈ l := perm.mem_iff.mpr ((sortBy_perm less l').mem_iff.mp mem_b)
    exact List.inj_on_of_nodup_map distinct in_a in_b (le_antisymm first second)

theorem map_sortBy {f : α → β} {less : α → α → Bool} {less' : β → β → Bool}
    (same : ∀ a b, less a b = less' (f a) (f b)) (l : List α) :
    (sortBy less l).map f = sortBy less' (l.map f) := by
  apply List.map_mergeSort
  intro a _ b _
  rw [same]

theorem perm_of_map_sortBy_eq {f : α → β} {less : α → α → Bool} {l l' : List α}
    (same : (sortBy less l).map f = (sortBy less l').map f) : (l.map f).Perm (l'.map f) := by
  have left : ((sortBy less l).map f).Perm (l.map f) := (sortBy_perm less l).map f
  have right : ((sortBy less l').map f).Perm (l'.map f) := (sortBy_perm less l').map f
  rw [same] at left
  exact left.symm.trans right

theorem map_eq_of_map_eq {γ : Type} {f : α → β} {g : α → γ}
    (through : ∀ a b, f a = f b → g a = g b) {l l' : List α} (same : l.map f = l'.map f) :
    l.map g = l'.map g := by
  induction l generalizing l' with
  | nil =>
      rw [List.map_nil, eq_comm, List.map_eq_nil_iff] at same
      rw [same]
  | cons a l ih =>
      cases l' with
      | nil => cases same
      | cons b l' =>
          simp only [List.map_cons, List.cons.injEq] at same
          rw [List.map_cons, List.map_cons, through a b same.1, ih same.2]

end Sorting

def normalStock (s : StockInput) : StockInput :=
  { s with offerId := nonEmpty s.offerId, warehouseName := none }

def normalCost (c : CostInput) : CostInput :=
  { c with
    purchaseSource := nonEmpty c.purchaseSource
    purchaseSourceAt := nonEmpty c.purchaseSourceAt }

/-- Two requests that differ at most in the order of their rows, in the warehouse names of their
stocks, and in optional texts that are absent in one and empty in the other. -/
structure SameContent (r r' : SnapshotRequest) : Prop where
  batchId : r.batchId = r'.batchId
  measuredAt : r.measuredAt = r'.measuredAt
  mode : r.mode = r'.mode
  stocks : (r.stocks.map normalStock).Perm (r'.stocks.map normalStock)
  warehouses : r.warehouses.Perm r'.warehouses
  costs : (r.costs.map normalCost).Perm (r'.costs.map normalCost)

structure DistinctKeys (r : SnapshotRequest) : Prop where
  stocks : (r.stocks.map StockInput.key).Nodup
  warehouses : (r.warehouses.map WarehouseInput.warehouseId).Nodup
  costs : (r.costs.map CostInput.sku1c).Nodup

section Rows

theorem optStr_eq_iff (a b : Option String) : optStr a = optStr b ↔ nonEmpty a = nonEmpty b := by
  have null_iff : ∀ a : Option String, optStr a = .null ↔ nonEmpty a = none := by
    intro a
    cases a with
    | none => simp [optStr, nonEmpty]
    | some v => by_cases blank : v = "" <;> simp [optStr, nonEmpty, Option.filter, blank]
  have text_iff : ∀ (a : Option String) (v : String),
      optStr a = .string v ↔ nonEmpty a = some v := by
    intro a v
    cases a with
    | none => simp [optStr, nonEmpty]
    | some w => by_cases blank : w = "" <;> simp [optStr, nonEmpty, Option.filter, blank]
  cases here : nonEmpty b with
  | none => rw [(null_iff b).mpr here, null_iff]
  | some v => rw [(text_iff b v).mpr here, text_iff]

theorem optNum_inj {a b : Option ℚ} (same : optNum a = optNum b) : a = b := by
  cases a <;> cases b <;> simp_all [optNum]

theorem stockJson_eq_iff (a b : StockInput) :
    stockJson a = stockJson b ↔ normalStock a = normalStock b := by
  obtain ⟨sku, offer, warehouse, name, available, reserved⟩ := a
  obtain ⟨sku', offer', warehouse', name', available', reserved'⟩ := b
  simp [stockJson, normalStock, optStr_eq_iff]

theorem costJson_eq_iff (a b : CostInput) :
    costJson a = costJson b ↔ normalCost a = normalCost b := by
  obtain ⟨sku, batch, purchase, source, source_at, dealer⟩ := a
  obtain ⟨sku', batch', purchase', source', source_at', dealer'⟩ := b
  have nums : ∀ a b : Option ℚ, optNum a = optNum b ↔ a = b :=
    fun a b => ⟨optNum_inj, congrArg optNum⟩
  simp [costJson, normalCost, optStr_eq_iff, nums]

theorem warehouseJson_inj {a b : WarehouseInput} (same : warehouseJson a = warehouseJson b) :
    a = b := by
  cases a
  cases b
  simpa [warehouseJson] using same

end Rows

section Orders

theorem stockLess_iff (a b : StockInput) :
    stockLess a b = true ↔ toLex a.key < toLex b.key := by
  rw [Prod.Lex.toLex_lt_toLex]
  by_cases same : a.sku1c = b.sku1c
  · simp [stockLess, StockInput.key, same]
  · simp [stockLess, StockInput.key, same]

theorem sorted_stocks_eq {l l' : List StockInput} (perm : (l.map normalStock).Perm (l'.map normalStock))
    (distinct : (l.map StockInput.key).Nodup) :
    (sortBy stockLess l).map stockJson = (sortBy stockLess l').map stockJson := by
  have through : ∀ l, (sortBy stockLess l).map normalStock = sortBy stockLess (l.map normalStock) :=
    map_sortBy fun _ _ => rfl
  have keys : ((l.map normalStock).map fun s => toLex s.key).Nodup := by
    have same : (l.map normalStock).map (fun s => toLex s.key) =
        (l.map StockInput.key).map toLex := by
      rw [List.map_map, List.map_map]
      rfl
    rw [same]
    exact distinct.map toLex.injective
  apply map_eq_of_map_eq (f := normalStock) fun a b => (stockJson_eq_iff a b).mpr
  rw [through, through]
  exact sortBy_eq_of_perm stockLess_iff perm keys

theorem sorted_costs_eq {l l' : List CostInput} (perm : (l.map normalCost).Perm (l'.map normalCost))
    (distinct : (l.map CostInput.sku1c).Nodup) :
    (sortBy (fun a b => a.sku1c < b.sku1c) l).map costJson =
      (sortBy (fun a b => a.sku1c < b.sku1c) l').map costJson := by
  have through : ∀ l : List CostInput, (sortBy (fun a b => a.sku1c < b.sku1c) l).map normalCost =
      sortBy (fun a b => a.sku1c < b.sku1c) (l.map normalCost) :=
    map_sortBy fun _ _ => rfl
  have keys : ((l.map normalCost).map CostInput.sku1c).Nodup := by
    rw [List.map_map]
    exact distinct
  apply map_eq_of_map_eq (f := normalCost) fun a b => (costJson_eq_iff a b).mpr
  rw [through, through]
  exact sortBy_eq_of_perm (fun a b => decide_eq_true_iff) perm keys

theorem sameContent_of_canonicalJson {r r' : SnapshotRequest}
    (same : canonicalJson r = canonicalJson r') : SameContent r r' := by
  simp only [canonicalJson, Json.object.injEq, List.cons.injEq, Prod.mk.injEq, true_and, and_true,
    Json.string.injEq, Json.array.injEq] at same
  obtain ⟨batchId, measuredAt, mode, stocks, warehouses, costs⟩ := same
  refine ⟨batchId, measuredAt, mode, ?_, ?_, ?_⟩
  · exact perm_of_map_sortBy_eq (map_eq_of_map_eq (fun a b => (stockJson_eq_iff a b).mp) stocks)
  · have same := perm_of_map_sortBy_eq
      (map_eq_of_map_eq (g := id) (fun _ _ => warehouseJson_inj) warehouses)
    rwa [List.map_id, List.map_id] at same
  · exact perm_of_map_sortBy_eq (map_eq_of_map_eq (fun a b => (costJson_eq_iff a b).mp) costs)

theorem canonicalJson_of_sameContent {r r' : SnapshotRequest} (content : SameContent r r')
    (stocks : (r.stocks.map StockInput.key).Nodup) (costs : (r.costs.map CostInput.sku1c).Nodup)
    (warehouses : r.warehouses = r'.warehouses ∨
      (r.warehouses.map WarehouseInput.warehouseId).Nodup) :
    canonicalJson r = canonicalJson r' := by
  have sorted : sortBy (fun a b => a.warehouseId < b.warehouseId) r.warehouses =
      sortBy (fun a b => a.warehouseId < b.warehouseId) r'.warehouses := by
    rcases warehouses with same | distinct
    · rw [same]
    · exact sortBy_eq_of_perm (fun a b => decide_eq_true_iff) content.warehouses distinct
  simp only [canonicalJson, content.batchId, content.measuredAt, content.mode,
    sorted_stocks_eq content.stocks stocks, sorted, sorted_costs_eq content.costs costs]

theorem canonicalJson_eq_iff {r r' : SnapshotRequest} (distinct : DistinctKeys r) :
    canonicalJson r = canonicalJson r' ↔ SameContent r r' := by
  constructor
  · exact sameContent_of_canonicalJson
  · intro content
    exact canonicalJson_of_sameContent content distinct.stocks distinct.costs
      (Or.inr distinct.warehouses)

/-- The rows of two requests are equal as sets, up to what the canonical JSON leaves out. -/
structure SameSets (r r' : SnapshotRequest) : Prop where
  batchId : r.batchId = r'.batchId
  measuredAt : r.measuredAt = r'.measuredAt
  mode : r.mode = r'.mode
  stocks : Set.image normalStock {s | s ∈ r.stocks} = Set.image normalStock {s | s ∈ r'.stocks}
  warehouses : {w | w ∈ r.warehouses} = {w | w ∈ r'.warehouses}
  costs : Set.image normalCost {c | c ∈ r.costs} = Set.image normalCost {c | c ∈ r'.costs}

private theorem image_eq_iff_perm {α β : Type} {f : α → β} {l l' : List α}
    (distinct : (l.map f).Nodup) (distinct' : (l'.map f).Nodup) :
    Set.image f {a | a ∈ l} = Set.image f {a | a ∈ l'} ↔ (l.map f).Perm (l'.map f) := by
  have members : ∀ l : List α, ∀ b, b ∈ Set.image f {a | a ∈ l} ↔ b ∈ l.map f := by
    intro l b
    rw [Set.mem_image, List.mem_map]
    rfl
  rw [List.perm_ext_iff_of_nodup distinct distinct', Set.ext_iff]
  apply forall_congr'
  intro b
  rw [members, members]

private theorem nodup_of_key {α β κ : Type} {f : α → β} {key : α → κ} (key' : β → κ)
    (through : ∀ a, key' (f a) = key a) {l : List α} (distinct : (l.map key).Nodup) :
    (l.map f).Nodup := by
  have same : (l.map f).map key' = l.map key := by
    rw [List.map_map]
    exact List.map_congr_left fun a _ => through a
  rw [← same] at distinct
  exact distinct.of_map key'

theorem sameSets_iff {r r' : SnapshotRequest} (distinct : DistinctKeys r)
    (distinct' : DistinctKeys r') : SameSets r r' ↔ SameContent r r' := by
  have stocks := image_eq_iff_perm
    (nodup_of_key (f := normalStock) StockInput.key (fun _ => rfl) distinct.stocks)
    (nodup_of_key (f := normalStock) StockInput.key (fun _ => rfl) distinct'.stocks)
  have costs := image_eq_iff_perm
    (nodup_of_key (f := normalCost) CostInput.sku1c (fun _ => rfl) distinct.costs)
    (nodup_of_key (f := normalCost) CostInput.sku1c (fun _ => rfl) distinct'.costs)
  have warehouses : {w | w ∈ r.warehouses} = {w | w ∈ r'.warehouses} ↔
      r.warehouses.Perm r'.warehouses := by
    rw [List.perm_ext_iff_of_nodup (distinct.warehouses.of_map _) (distinct'.warehouses.of_map _)]
    exact Set.ext_iff
  constructor
  · intro same
    exact ⟨same.batchId, same.measuredAt, same.mode, stocks.mp same.stocks,
      warehouses.mp same.warehouses, costs.mp same.costs⟩
  · intro same
    exact ⟨same.batchId, same.measuredAt, same.mode, stocks.mpr same.stocks,
      warehouses.mpr same.warehouses, costs.mpr same.costs⟩

/-- The canonical JSON stands for the content of a request: its rows as sets, without the warehouse
names of its stocks, and with an empty optional text for an absent one. -/
theorem canonicalJson_eq_iff_sets (r r' : SnapshotRequest) (distinct : DistinctKeys r)
    (distinct' : DistinctKeys r') : canonicalJson r = canonicalJson r' ↔ SameSets r r' := by
  rw [sameSets_iff distinct distinct']
  exact canonicalJson_eq_iff distinct

def stocksRequest (stocks : List StockInput) : SnapshotRequest where
  batchId := "batch-1"
  measuredAt := "2026-09-23T15:08:23Z"
  stocks := stocks

def offered (offerId : Option String) : StockInput where
  sku1c := "sku-1"
  offerId := offerId
  warehouseId := "wh-1"

def elsewhere : StockInput where
  sku1c := "sku-1"
  warehouseId := "wh-2"

theorem canonicalJson_eq_iff_sets_reordered :
    canonicalJson (stocksRequest [offered (some ""), elsewhere]) =
      canonicalJson (stocksRequest [elsewhere, offered none]) := by
  refine (canonicalJson_eq_iff_sets _ _ ⟨by decide, by decide, by decide⟩
    ⟨by decide, by decide, by decide⟩).mpr ⟨rfl, rfl, rfl, ?_, rfl, rfl⟩
  have same : normalStock (offered (some "")) = normalStock (offered none) := by decide
  ext s
  simp [stocksRequest, same, or_comm]

end Orders

end Scand.Inventory.CanonicalForm
