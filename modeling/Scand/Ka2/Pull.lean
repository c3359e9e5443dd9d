/- path: Scand/Ka2/Pull
   layer: code model and its results
   digest: Ka2Inventory::pull over its five readers, and when a failed request of a finished pull is
   visible in its warnings. -/

import Scand.Ka2.Balance
import Mathlib.Algebra.Order.Ring.Unbundled.Rat

set_option autoImplicit false
set_option relaxedAutoImplicit false

namespace Scand.Ka2.Pull

open Scand.Foundation.JsonValue
open Scand.Foundation.Outcomes
open Scand.Foundation.WorkQueue
open Scand.Ka2.Reader
open Scand.Ka2.Balance

structure Warehouse where
  refKey : String
  description : String

structure AnalyticKey where
  refKey : String
  nomenclatureKey : String

structure StockBalance where
  nomenclatureKey : String
  characteristicKey : String
  warehouseKey : String
  quantity : ℚ

structure CostBalance where
  analyticKey : String
  organizationKey : String
  batchKey : String
  quantity : ℚ
  cost : ℚ

structure SupplierPrice where
  period : String
  partnerKey : String
  nomenclatureKey : String
  price : ℚ

structure PullResult where
  warehouses : List Warehouse := []
  analytics : List AnalyticKey := []
  stocks : List StockBalance := []
  costs : List CostBalance := []
  suppliers : List SupplierPrice := []
  warnings : List String := []

/-- A row of the warehouse catalogue; deleted ones, folders and those without a key are skipped. -/
def warehouseOf (o : Fields) : Option Warehouse :=
  if getBool o "DeletionMark" false || getBool o "IsFolder" false then none
  else if getStr o "Ref_Key" = "" then none
  else some { refKey := getStr o "Ref_Key", description := getStr o "Description" }

def warehousesRequest (opts : Ka2Options) (skip : Nat) : PageRequest where
  path := "Catalog_Склады"
  params := [("$format", "json"), ("$select", "Ref_Key,Description,DeletionMark,IsFolder")]
  skip := skip
  top := opts.pageSizeFlat

def readWarehouses (opts : Ka2Options) (server : Server) (fuel : Nat) : Run (List Warehouse) :=
  fun r => ∃ outcome,
    readPages opts.pageSizeFlat
      (fun skip => readPage opts server { source := .warehouses } (warehousesRequest opts skip))
      "KA2 warehouses err: " fuel 0 = some outcome ∧
    r = outcome.map fun got => (got.rows.filterMap warehouseOf, got.caught)

def uniqueAnalytics : List Fields → List String → List AnalyticKey
  | [], _ => []
  | o :: rows, seen =>
      let refKey := getStr o "Ref_Key"
      if refKey = "" then uniqueAnalytics rows seen
      else if refKey ∈ seen then uniqueAnalytics rows seen
      else
        { refKey := refKey, nomenclatureKey := getStr o "Номенклатура_Key" } ::
          uniqueAnalytics rows (refKey :: seen)

def analyticsQuery : FlatQuery where
  source := .analytics
  path := "Catalog_КлючиАналитикиУчетаНоменклатуры"
  filterField := "Номенклатура_Key"
  selectFields := "Ref_Key,Номенклатура_Key"

def readAnalytics (opts : Ka2Options) (server : Server) (fuel : Nat) (productKeys : List String) :
    Run (List AnalyticKey) := do
  let rows ← readChunkedParallel opts server fuel analyticsQuery productKeys
  return uniqueAnalytics rows []

/-- A balance row with a product; what is reserved is taken off, down to nothing. -/
def stockOf (o : Fields) : Option StockBalance :=
  if getStr o "Номенклатура_Key" = "" then none
  else some {
    nomenclatureKey := getStr o "Номенклатура_Key"
    characteristicKey := getStr o "Характеристика_Key"
    warehouseKey := getStr o "Склад_Key"
    quantity := max 0 (getNum o "ВНаличииBalance" - getNum o "КОтгрузкеBalance") }

def readStocks (opts : Ka2Options) (server : Server) (period : String)
    (productKeys : List String) : Run (List StockBalance) := do
  let rows ← readBalanceChunked (stocksQuery period) opts server productKeys
  return rows.filterMap stockOf

def costOf (o : Fields) : Option CostBalance :=
  if getStr o "АналитикаУчетаНоменклатуры_Key" = "" then none
  else some {
    analyticKey := getStr o "АналитикаУчетаНоменклатуры_Key"
    organizationKey := getStr o "Организация_Key"
    batchKey := getStr o "Партия_Key"
    quantity := getNum o "КоличествоBalance"
    cost := getNum o "СтоимостьBalance" }

def readCosts (opts : Ka2Options) (server : Server) (period : String)
    (analyticKeys : List String) : Run (List CostBalance) := do
  let rows ← readBalanceChunked (costsQuery period) opts server analyticKeys
  return rows.filterMap costOf

def suppliersQuery : FlatQuery where
  source := .suppliers
  path := "InformationRegister_ЦеныНоменклатурыПоставщиков_RecordType"
  filterField := "Номенклатура_Key"
  selectFields := "Period,Партнер_Key,Номенклатура_Key,Цена"

def supplierOf (o : Fields) : Option SupplierPrice :=
  if getStr o "Номенклатура_Key" = "" then none
  else if getNum o "Цена" ≤ 0 then none
  else some {
    period := getStr o "Period"
    partnerKey := getStr o "Партнер_Key"
    nomenclatureKey := getStr o "Номенклатура_Key"
    price := getNum o "Цена" }

def readSuppliers (opts : Ka2Options) (server : Server) (fuel : Nat) (productKeys : List String) :
    Run (List SupplierPrice) := do
  let rows ← readChunkedParallel opts server fuel suppliersQuery productKeys
  return rows.filterMap supplierOf

def noAnalyticsWarning : String :=
  "Не найдены ключи аналитики учета номенклатуры — себестоимость не загружена."

def pullCosts (opts : Ka2Options) (server : Server) (period : String)
    (analyticKeys : List String) : Run (List CostBalance × List String) :=
  if analyticKeys.isEmpty then return ([], [noAnalyticsWarning])
  else do
    let costs ← readCosts opts server period analyticKeys
    return (costs, [])

def pull (opts : Ka2Options) (server : Server) (fuel : Nat) (productKeys : List String)
    (period : String) : Run PullResult := do
  let warehouses ← readWarehouses opts server fuel
  let analytics ← readAnalytics opts server fuel productKeys
  let analyticKeys := (analytics.map AnalyticKey.refKey).filter (· ≠ "")
  let (costs, warnings) ← pullCosts opts server period analyticKeys
  let stocks ← readStocks opts server period productKeys
  let suppliers ← readSuppliers opts server fuel productKeys
  return {
    warehouses := warehouses
    analytics := analytics
    stocks := stocks
    costs := costs
    suppliers := suppliers
    warnings := warnings }

/-- No page that the analytics reader asks for carries a row with a key. -/
def NoAnalyticsKey (opts : Ka2Options) (server : Server) (productKeys : List String) : Prop :=
  ∀ task ∈ (chunkVector productKeys opts.chunkSize).zipIdx, ∀ skip items,
    Asked opts.pageSizeFlat (analyticsQuery.readAt opts server task.1 task.2) 0 skip →
    pageItems (analyticsQuery.readAt opts server task.1 task.2 skip) = some items →
    ∀ o, Json.object o ∈ items → getStr o "Ref_Key" = ""

theorem uniqueAnalytics_key {rows : List Fields} {seen : List String} :
    ∀ a ∈ uniqueAnalytics rows seen, a.refKey ≠ "" := by
  induction rows generalizing seen with
  | nil => intro a mem; cases mem
  | cons o rows ih =>
      intro a mem
      simp only [uniqueAnalytics] at mem
      split at mem
      · exact ih a mem
      · rename_i keyed
        split at mem
        · exact ih a mem
        · rcases List.mem_cons.mp mem with rfl | later
          · exact keyed
          · exact ih a later

theorem uniqueAnalytics_nil {rows : List Fields} :
    uniqueAnalytics rows [] = [] ↔ ∀ o ∈ rows, getStr o "Ref_Key" = "" := by
  induction rows with
  | nil => simp [uniqueAnalytics]
  | cons o rows ih =>
      by_cases keyed : getStr o "Ref_Key" = ""
      · simp [uniqueAnalytics, keyed, ih]
      · simp [uniqueAnalytics, keyed]

section Warnings

variable {opts : Ka2Options} {server : Server} {fuel : Nat} {productKeys : List String}
  {period : String} {result : PullResult} {caught : List String}

theorem pull_ok (finished : pull opts server fuel productKeys period (.ok (result, caught))) :
    ∃ first second third fourth fifth,
      readWarehouses opts server fuel (.ok (result.warehouses, first)) ∧
      readAnalytics opts server fuel productKeys (.ok (result.analytics, second)) ∧
      pullCosts opts server period ((result.analytics.map AnalyticKey.refKey).filter (· ≠ ""))
        (.ok ((result.costs, result.warnings), third)) ∧
      readStocks opts server period productKeys (.ok (result.stocks, fourth)) ∧
      readSuppliers opts server fuel productKeys (.ok (result.suppliers, fifth)) ∧
      caught = first ++ (second ++ (third ++ (fourth ++ fifth))) := by
  obtain ⟨warehouses, first, _, read₁, after₁, rfl⟩ := Run.bind_ok.mp finished
  obtain ⟨analytics, second, _, read₂, after₂, rfl⟩ := Run.bind_ok.mp after₁
  obtain ⟨⟨costs, warnings⟩, third, _, read₃, after₃, rfl⟩ := Run.bind_ok.mp after₂
  obtain ⟨stocks, fourth, _, read₄, after₄, rfl⟩ := Run.bind_ok.mp after₃
  obtain ⟨suppliers, fifth, _, read₅, after₅, rfl⟩ := Run.bind_ok.mp after₄
  obtain ⟨rfl, rfl⟩ := Run.pure_ok.mp after₅
  exact ⟨first, second, third, fourth, fifth, read₁, read₂, read₃, read₄, read₅,
    by rw [List.append_nil]⟩

private theorem exists_pullCosts (opts : Ka2Options) (server : Server) (period : String)
    (analyticKeys : List String) :
    ∃ costs third, pullCosts opts server period analyticKeys (.ok (costs, third)) := by
  unfold pullCosts
  split
  · exact ⟨_, _, Run.pure_ok.mpr ⟨rfl, rfl⟩⟩
  · obtain ⟨rows, third, read⟩ :=
      exists_readBalanceChunked (costsQuery period) opts server analyticKeys
    have costs : readCosts opts server period analyticKeys (.ok (rows.filterMap costOf, third)) :=
      Run.map_ok read _
    exact ⟨_, third, Run.map_ok costs _⟩

theorem exists_pull (period : String) (warehouses : List Warehouse) {first : List String}
    (warehouses_read : readWarehouses opts server fuel (.ok (warehouses, first)))
    (analytics_read : ∃ rows caught, readChunkedParallel opts server fuel analyticsQuery productKeys
      (.ok (rows, caught)))
    (suppliers_read : ∃ rows caught, readChunkedParallel opts server fuel suppliersQuery productKeys
      (.ok (rows, caught))) :
    ∃ result rest, pull opts server fuel productKeys period (.ok (result, first ++ rest)) ∧
      result.warehouses = warehouses := by
  obtain ⟨analytic_rows, second, read₂⟩ := analytics_read
  obtain ⟨supplier_rows, fifth, read₅⟩ := suppliers_read
  obtain ⟨stock_rows, fourth, read₄⟩ :=
    exists_readBalanceChunked (stocksQuery period) opts server productKeys
  have analytics : readAnalytics opts server fuel productKeys
      (.ok (uniqueAnalytics analytic_rows [], second)) := Run.map_ok read₂ _
  have stocks : readStocks opts server period productKeys
      (.ok (stock_rows.filterMap stockOf, fourth)) := Run.map_ok read₄ _
  have suppliers : readSuppliers opts server fuel productKeys
      (.ok (supplier_rows.filterMap supplierOf, fifth)) := Run.map_ok read₅ _
  obtain ⟨costs, third, read₃⟩ := exists_pullCosts opts server period
    (((uniqueAnalytics analytic_rows []).map AnalyticKey.refKey).filter (· ≠ ""))
  let result : PullResult := {
    warehouses := warehouses
    analytics := uniqueAnalytics analytic_rows []
    stocks := stock_rows.filterMap stockOf
    costs := costs.1
    suppliers := supplier_rows.filterMap supplierOf
    warnings := costs.2 }
  refine ⟨result, second ++ (third ++ (fourth ++ fifth)), ?_, rfl⟩
  apply Run.then_ok warehouses_read
  apply Run.then_ok analytics
  apply Run.then_ok read₃
  apply Run.then_ok stocks
  exact Run.map_ok suppliers _

private theorem pullCosts_warnings {analyticKeys : List String} {costs : List CostBalance}
    {warnings : List String}
    (read : pullCosts opts server period analyticKeys (.ok ((costs, warnings), caught))) :
    warnings ≠ [] ↔ analyticKeys = [] := by
  unfold pullCosts at read
  split at read
  · rename_i empty
    obtain ⟨same, -⟩ := Run.pure_ok.mp read
    cases same
    simpa using empty
  · rename_i keyed
    obtain ⟨_, _, _, -, read, -⟩ := Run.bind_ok.mp read
    obtain ⟨same, -⟩ := Run.pure_ok.mp read
    cases same
    simpa using keyed

theorem pull_warnings_iff
    (finished : pull opts server fuel productKeys period (.ok (result, caught))) :
    result.warnings ≠ [] ↔ NoAnalyticsKey opts server productKeys := by
  obtain ⟨_, _, _, _, _, -, analytics_read, costs_read, -, -, -⟩ := pull_ok finished
  obtain ⟨rows, _, _, read, analytics_read, -⟩ := Run.bind_ok.mp analytics_read
  obtain ⟨analytics_eq, -⟩ := Run.pure_ok.mp analytics_read
  have keys_nil : (result.analytics.map AnalyticKey.refKey).filter (· ≠ "") = [] ↔
      result.analytics = [] := by
    constructor
    · intro empty
      rw [List.filter_eq_nil_iff] at empty
      rw [List.eq_nil_iff_forall_not_mem]
      intro a mem
      have keyed := uniqueAnalytics_key a (analytics_eq ▸ mem)
      exact empty a.refKey (List.mem_map_of_mem mem) (by simpa using keyed)
    · intro empty
      rw [empty]
      rfl
  rw [pullCosts_warnings costs_read, keys_nil, analytics_eq, uniqueAnalytics_nil]
  constructor
  · intro none_keyed task mem skip items asked page o object
    exact none_keyed o ((mem_readChunkedParallel read o).mpr
      ⟨task, mem, skip, items, asked, page, object⟩)
  · intro none_keyed o mem
    obtain ⟨task, listed, skip, items, asked, page, object⟩ :=
      (mem_readChunkedParallel read o).mp mem
    exact none_keyed task listed skip items asked page o object

/-- A pull that finished after catching a failed request says so exactly when its analytics reader
found no key. -/
theorem pull_reports_failure_iff
    (finished : pull opts server fuel productKeys period (.ok (result, caught))) :
    caught ≠ [] → (result.warnings ≠ [] ↔ NoAnalyticsKey opts server productKeys) :=
  fun _ => pull_warnings_iff finished

end Warnings

section Sample

def warehousesDown : Server := fun site _ _ =>
  match site.source with
  | .warehouses => { statusCode := 500, body := .error "syntax error" }
  | .analytics => { statusCode := 200, body := .ok (pageOf [[("Ref_Key", .string "a-1"),
      ("Номенклатура_Key", .string "p-1")]]) }
  | .stocks | .costs | .suppliers => { statusCode := 200, body := .ok (pageOf []) }

private theorem down_analytics :
    ¬ NoAnalyticsKey {} warehousesDown ["p-1"] := by
  intro none_keyed
  have chunks : (chunkVector ["p-1"] ({} : Ka2Options).chunkSize).zipIdx = [(["p-1"], 0)] := by
    decide
  have empty := none_keyed (["p-1"], 0) (chunks ▸ List.mem_singleton_self _) 0 _ .here rfl
    [("Ref_Key", .string "a-1"), ("Номенклатура_Key", .string "p-1")] (by simp)
  revert empty
  decide

private theorem down_finishes :
    ∃ result rest, pull {} warehousesDown 1 ["p-1"] "2026-09-23T00:00:00"
      (.ok (result, ["KA2 warehouses err: KA2 read_page failed: Catalog_Склады"] ++ rest)) := by
  have analytics_read : ∃ rows caught, readChunkedParallel {} warehousesDown 1 analyticsQuery
      ["p-1"] (.ok (rows, caught)) :=
    exists_readChunkedParallel (fun _ => { rows := [[("Ref_Key", .string "a-1"),
      ("Номенклатура_Key", .string "p-1")]] }) fun _ _ => rfl
  have suppliers_read : ∃ rows caught, readChunkedParallel {} warehousesDown 1 suppliersQuery
      ["p-1"] (.ok (rows, caught)) :=
    exists_readChunkedParallel (fun _ => {}) fun _ _ => rfl
  obtain ⟨result, rest, finished, -⟩ := exists_pull "2026-09-23T00:00:00" []
    ⟨_, rfl, rfl⟩ analytics_read suppliers_read
  exact ⟨result, rest, finished⟩

/-- The warehouse read fails, and the pull returns without any warning. -/
theorem lost_warehouses_unreported :
    ∃ result caught, pull {} warehousesDown 1 ["p-1"] "2026-09-23T00:00:00"
        (.ok (result, caught)) ∧ caught ≠ [] ∧ result.warnings = [] := by
  obtain ⟨result, rest, finished⟩ := down_finishes
  refine ⟨result, _, finished, by simp, ?_⟩
  by_contra reported
  exact down_analytics ((pull_warnings_iff finished).mp reported)

theorem pull_reports_failure_down :
    ∃ result caught, pull {} warehousesDown 1 ["p-1"] "2026-09-23T00:00:00"
        (.ok (result, caught)) ∧
      (result.warnings ≠ [] ↔ NoAnalyticsKey {} warehousesDown ["p-1"]) := by
  obtain ⟨result, rest, finished⟩ := down_finishes
  exact ⟨result, _, finished, pull_reports_failure_iff finished (by simp)⟩

end Sample

end Scand.Ka2.Pull
