/- path: Scand/Inventory/AllowedWarehouses
   layer: code model and its results
   digest: AllowedWarehouseRepository under any history of edits, and when the snapshot that is built
   with it names only warehouses that its list lets through. -/

import Scand.Inventory.Endpoints
import Mathlib.Logic.Function.Basic

set_option autoImplicit false
set_option relaxedAutoImplicit false

namespace Scand.Inventory.AllowedWarehouses

open Scand.Foundation.Accumulate
open Scand.Foundation.KeyedTable
open Scand.Inventory.Endpoints
open Scand.Inventory.PullToSnapshot
open Scand.Inventory.Snapshot
open Scand.Ka2.Pull

structure AllowedRow where
  tenantId : Int
  warehouseId : String
  enabled : Bool
  note : String
  deriving DecidableEq

abbrev AllowedRow.key (r : AllowedRow) : Int × String := (r.tenantId, r.warehouseId)

abbrev AllowedTable := Table AllowedRow AllowedRow.key

section Repository

variable (warehouseId : String) (tenantId : Int)

/-- `INSERT INTO allowed_warehouses ... ON CONFLICT DO UPDATE SET enabled, note`. -/
def upsert (enabled : Bool) (note : String) (t : AllowedTable) : Except SqlError AllowedTable := do
  let stored ← varchar 64 warehouseId
  return t.upsert (fun old new => { old with enabled := new.enabled, note := new.note })
    (fun _ _ => rfl)
    { tenantId := tenantId, warehouseId := stored, enabled := enabled, note := note }

def remove (t : AllowedTable) : AllowedTable :=
  t.delete fun r => r.tenantId = tenantId ∧ r.warehouseId = warehouseId

def enabledIds (t : AllowedTable) : List String :=
  (t.rows.filter fun r => r.tenantId = tenantId ∧ r.enabled = true).map AllowedRow.warehouseId

end Repository

inductive Edit
  | upsert (warehouseId : String) (enabled : Bool) (note : String) (tenantId : Int)
  | remove (warehouseId : String) (tenantId : Int)

/-- A refused statement leaves the table as it was. -/
def Edit.run (t : AllowedTable) : Edit → AllowedTable
  | .upsert warehouseId enabled note tenantId =>
      (AllowedWarehouses.upsert warehouseId tenantId enabled note t).toOption.getD t
  | .remove warehouseId tenantId => AllowedWarehouses.remove warehouseId tenantId t

def runEdits (edits : List Edit) (t : AllowedTable) : AllowedTable := edits.foldl Edit.run t

/-- The set that both requests hand to `pull_to_snapshot`; they catch an exception of the read. -/
def allowedWarehouses (readOk : Bool) (t : AllowedTable) : List String :=
  if readOk then enabledIds 1 t else []

/-- The list of a tenant: whether each warehouse in it is enabled. -/
def listOf (tenantId : Int) (t : AllowedTable) (warehouseId : String) : Option Bool :=
  (t.rows.find? fun r => r.key = (tenantId, warehouseId)).map AllowedRow.enabled

def Edit.onList (tenantId : Int) (list : String → Option Bool) : Edit → String → Option Bool
  | .upsert warehouseId enabled _ tenant =>
      match varchar 64 warehouseId with
      | .ok stored =>
          if tenant = tenantId then Function.update list stored (some enabled) else list
      | .error _ => list
  | .remove warehouseId tenant =>
      if tenant = tenantId then Function.update list warehouseId none else list

def listAfter (t₀ : AllowedTable) (edits : List Edit) : String → Option Bool :=
  edits.foldl (fun list edit => edit.onList 1 list) (listOf 1 t₀)

/-- An empty list lets every warehouse through, any other one those that it enables. -/
def LetsThrough (list : String → Option Bool) (warehouseId : String) : Prop :=
  (∀ other, list other = none) ∨ list warehouseId = some true

def Names (req : SnapshotRequest) (warehouseId : String) : Prop :=
  warehouseId ∈ req.warehouses.map WarehouseInput.warehouseId ∨
    ∃ s ∈ req.stocks, s.warehouseId = warehouseId

def Offered (pull : PullResult) (warehouseId : String) : Prop :=
  (warehouseId ≠ "" ∧ warehouseId ∈ pull.warehouses.map Warehouse.refKey) ∨
    ∃ s ∈ creating pull [], s.warehouseKey = warehouseId

section Lists

variable {t : AllowedTable} {tenantId : Int}

theorem listOf_eq_some {w : String} {enabled : Bool} :
    listOf tenantId t w = some enabled ↔
      ∃ r ∈ t.rows, r.key = (tenantId, w) ∧ r.enabled = enabled := by
  simp only [listOf, Option.map_eq_some_iff, Table.find?_key_eq_some, and_assoc]

private theorem listOf_congr {u : AllowedTable} {w : String}
    (same : ∀ r : AllowedRow, r.key = (tenantId, w) → (r ∈ t.rows ↔ r ∈ u.rows)) :
    listOf tenantId t w = listOf tenantId u w := by
  apply Option.ext
  intro enabled
  rw [listOf_eq_some, listOf_eq_some]
  constructor
  · intro given
    obtain ⟨r, mem, key, state⟩ := given
    exact ⟨r, (same r key).mp mem, key, state⟩
  · intro given
    obtain ⟨r, mem, key, state⟩ := given
    exact ⟨r, (same r key).mpr mem, key, state⟩

theorem upsert_ok (t : AllowedTable) {w stored : String} (note : String) (tenant : Int)
    (enabled : Bool) (accepted : varchar 64 w = .ok stored) :
    ∃ u, upsert w tenant enabled note t = .ok u ∧ ∀ r : AllowedRow, r ∈ u.rows ↔
      r = { tenantId := tenant, warehouseId := stored, enabled := enabled, note := note } ∨
        (r ∈ t.rows ∧ r.key ≠ (tenant, stored)) := by
  refine ⟨_, by rw [upsert, accepted]; rfl, fun r => ?_⟩
  apply Table.mem_upsert_replace
  intro old new same
  obtain ⟨tenant_eq, warehouse_eq⟩ := Prod.mk.inj same
  cases old
  cases new
  simp_all

theorem upsert_refused {w note : String} {tenant : Int} {enabled : Bool} {e : SqlError}
    (refused : varchar 64 w = .error e) : upsert w tenant enabled note t = .error e := by
  rw [upsert, refused]
  rfl

theorem listOf_edit (edit : Edit) :
    listOf tenantId (edit.run t) = edit.onList tenantId (listOf tenantId t) := by
  funext w
  cases edit with
  | upsert raw enabled note tenant =>
      cases accepted : varchar 64 raw with
      | error e =>
          simp only [Edit.run, upsert_refused accepted, Except.toOption, Option.getD_none,
            Edit.onList, accepted]
      | ok w' =>
        obtain ⟨u, stored, rows⟩ := upsert_ok t note tenant enabled accepted
        simp only [Edit.run, stored, Except.toOption, Option.getD_some, Edit.onList, accepted]
        by_cases here : tenant = tenantId ∧ w' = w
        · obtain ⟨rfl, rfl⟩ := here
          rw [if_pos rfl, Function.update_self, listOf_eq_some]
          exact ⟨_, (rows _).mpr (Or.inl rfl), rfl, rfl⟩
        · have kept : listOf tenantId u w = listOf tenantId t w := by
            apply listOf_congr
            intro r key
            have apart : (tenant, w') ≠ r.key := by
              rw [key]
              intro same
              exact here (Prod.mk.inj same)
            rw [rows]
            constructor
            · intro given
              rcases given with rfl | ⟨old, -⟩
              · exact absurd rfl apart
              · exact old
            · intro old
              exact Or.inr ⟨old, apart.symm⟩
          rw [kept]
          split
          · rename_i same
            have other : w ≠ w' := fun equal => here ⟨same, equal.symm⟩
            rw [Function.update_of_ne other]
          · rfl
  | remove w' tenant =>
      simp only [Edit.run, Edit.onList]
      by_cases here : tenant = tenantId ∧ w' = w
      · obtain ⟨rfl, rfl⟩ := here
        rw [if_pos rfl, Function.update_self, Option.eq_none_iff_forall_ne_some]
        intro enabled given
        obtain ⟨r, mem, key, -⟩ := listOf_eq_some.mp given
        rw [remove, Table.delete_rows, List.mem_filter] at mem
        obtain ⟨tenant_eq, warehouse_eq⟩ := Prod.mk.inj key
        simp [tenant_eq, warehouse_eq] at mem
      · have kept : listOf tenantId (remove w' tenant t) w = listOf tenantId t w := by
          apply listOf_congr
          intro r key
          obtain ⟨tenant_eq, warehouse_eq⟩ := Prod.mk.inj key
          have apart : ¬ (r.tenantId = tenant ∧ r.warehouseId = w') := by
            intro both
            exact here ⟨both.1.symm.trans tenant_eq, both.2.symm.trans warehouse_eq⟩
          rw [remove, Table.delete_rows, List.mem_filter]
          simp [apart]
        rw [kept]
        split
        · rename_i same
          have other : w ≠ w' := fun equal => here ⟨same, equal.symm⟩
          rw [Function.update_of_ne other]
        · rfl

theorem listOf_runEdits (edits : List Edit) (t : AllowedTable) :
    listOf tenantId (runEdits edits t) =
      edits.foldl (fun list edit => edit.onList tenantId list) (listOf tenantId t) := by
  induction edits generalizing t with
  | nil => rfl
  | cons edit edits ih =>
      rw [List.foldl_cons, ← listOf_edit]
      exact ih (edit.run t)

theorem mem_enabledIds {w : String} :
    w ∈ enabledIds tenantId t ↔ listOf tenantId t w = some true := by
  rw [listOf_eq_some, enabledIds]
  simp only [List.mem_map, List.mem_filter, decide_eq_true_eq, Prod.mk.injEq]
  constructor
  · intro given
    obtain ⟨r, ⟨mem, tenant, enabled⟩, rfl⟩ := given
    exact ⟨r, mem, ⟨tenant, rfl⟩, enabled⟩
  · intro given
    obtain ⟨r, mem, ⟨tenant, same⟩, enabled⟩ := given
    exact ⟨r, ⟨mem, tenant, enabled⟩, same⟩

end Lists

section Filter

variable (pull : PullResult) (offerByRef : String → Option String) (allowed : List String)
  (order : HashOrder) (period : String) (isPreview : Bool)

theorem names_pullToSnapshot (w : String) :
    Names (pullToSnapshot pull offerByRef allowed order period isPreview) w ↔
      (w ≠ "" ∧ isAllowed allowed w = true ∧ w ∈ pull.warehouses.map Warehouse.refKey) ∨
        ∃ s ∈ creating pull allowed, s.warehouseKey = w := by
  rw [Names, mem_stock_warehouses]
  have listed := mem_snapshotWarehouses pull allowed w
  exact or_congr_left listed

theorem isAllowed_of_names {w : String}
    (named : Names (pullToSnapshot pull offerByRef allowed order period isPreview) w) :
    isAllowed allowed w = true := by
  rcases (names_pullToSnapshot pull offerByRef allowed order period isPreview w).mp named with
    ⟨-, passes, -⟩ | ⟨s, mem, rfl⟩
  · exact passes
  · have taken := (List.mem_filter.mp (mem_of_mem_firsts mem)).2
    simp only [eligible, decide_eq_true_eq] at taken
    exact taken.2

theorem names_unfiltered (w : String) :
    Names (pullToSnapshot pull offerByRef [] order period isPreview) w ↔ Offered pull w := by
  rw [names_pullToSnapshot, Offered]
  simp [isAllowed]

theorem snapshot_eq_pullToSnapshot {endpoint : Endpoint} {env : Surroundings} {q : InventoryQuery}
    {db : Database.InventoryDb} {req : SnapshotRequest} (built : endpoint.snapshot env q db = .ok req) :
    ∃ productKeys period pull offers, env.pull productKeys period = .ok pull ∧
      req = pullToSnapshot pull offers env.allowedWarehouses env.order period false := by
  have pulled : ∀ selected noneSelected, snapshotOf env q selected noneSelected = .ok req →
      ∃ productKeys period pull offers, env.pull productKeys period = .ok pull ∧
        req = pullToSnapshot pull offers env.allowedWarehouses env.order period false := by
    intro selected noneSelected given
    unfold snapshotOf at given
    split at given
    · cases given
    · cases answer : env.pull (selected.map Database.CatalogRow.refKey)
          (if q.period ≠ "" then q.period else env.now) with
      | error e =>
          simp only [answer] at given
          cases given
      | ok pull =>
          simp only [answer] at given
          cases given
          exact ⟨_, _, pull, _, answer, rfl⟩
  cases endpoint with
  | ka2Save => exact pulled _ _ built
  | inventoryPulls =>
      simp only [Endpoint.snapshot, inventoryPullSnapshot] at built
      split at built
      · split at built
        · cases built
        · exact pulled _ _ built
      · exact pulled _ _ built

end Filter

section Requests

variable (t : AllowedTable) (readOk : Bool) (pull : PullResult)

/-- The list is empty, or it was read and enables a warehouse, or it enables everything that the
unfiltered request of the pull names. -/
def Respectable (list : String → Option Bool) : Prop :=
  (∀ w, list w = none) ∨ (readOk = true ∧ ∃ w, list w = some true) ∨
    ∀ w, Offered pull w → list w = some true

theorem lets_through_iff (offerByRef : String → Option String) (order : HashOrder)
    (period : String) (isPreview : Bool) :
    (∀ w, Names (pullToSnapshot pull offerByRef (allowedWarehouses readOk t) order period
          isPreview) w → LetsThrough (listOf 1 t) w) ↔
      Respectable readOk pull (listOf 1 t) := by
  unfold Respectable
  by_cases filtered : readOk = true ∧ ∃ w, listOf 1 t w = some true
  · refine iff_of_true ?_ (Or.inr (Or.inl filtered))
    intro w named
    obtain ⟨read, other, enabled⟩ := filtered
    have passes := isAllowed_of_names _ _ _ _ _ _ named
    have nonempty : other ∈ enabledIds 1 t := mem_enabledIds.mpr enabled
    have listed : w ∈ enabledIds 1 t := by
      rw [allowedWarehouses, if_pos read, isAllowed] at passes
      rcases Bool.or_eq_true_iff.mp passes with blank | found
      · rw [List.isEmpty_iff.mp blank] at nonempty
        cases nonempty
      · exact List.contains_iff_mem.mp found
    exact Or.inr (mem_enabledIds.mp listed)
  · have unfiltered : allowedWarehouses readOk t = [] := by
      unfold allowedWarehouses
      split
      · rename_i read
        rw [List.eq_nil_iff_forall_not_mem]
        intro w mem
        exact filtered ⟨read, w, mem_enabledIds.mp mem⟩
      · rfl
    rw [unfiltered]
    simp only [names_unfiltered, LetsThrough, filtered, false_or]
    by_cases blank : ∀ w, listOf 1 t w = none
    · simp [blank]
    · simp [blank]

end Requests

/-- The requests of both endpoints, when they work with the list of tenant 1. -/
theorem endpoint_lets_through {endpoint : Endpoint} {env : Surroundings} {q : InventoryQuery}
    {db : Database.InventoryDb} {req : SnapshotRequest} {t : AllowedTable} {readOk : Bool}
    (reads : env.allowedWarehouses = allowedWarehouses readOk t)
    (built : endpoint.snapshot env q db = .ok req) :
    ∃ productKeys period pull, env.pull productKeys period = .ok pull ∧
      ((∀ w, Names req w → LetsThrough (listOf 1 t) w) ↔
        Respectable readOk pull (listOf 1 t)) := by
  obtain ⟨productKeys, period, pull, offers, pulled, rfl⟩ := snapshot_eq_pullToSnapshot built
  rw [reads]
  exact ⟨productKeys, period, pull, pulled,
    lets_through_iff t readOk pull offers env.order period false⟩

/-- After any history of edits, the request names only warehouses that the list lets through exactly
when the list is empty, when it was read and enables a warehouse, or when it enables every warehouse
of the unfiltered request. -/
theorem allowed_list_respected_iff (t₀ : AllowedTable) (edits : List Edit) (readOk : Bool)
    (pull : PullResult) (offerByRef : String → Option String) (order : HashOrder)
    (period : String) (isPreview : Bool) :
    (∀ w, Names (pullToSnapshot pull offerByRef
          (allowedWarehouses readOk (runEdits edits t₀)) order period isPreview) w →
        LetsThrough (listAfter t₀ edits) w) ↔
      Respectable readOk pull (listAfter t₀ edits) := by
  rw [listAfter, ← listOf_runEdits]
  exact lets_through_iff (runEdits edits t₀) readOk pull offerByRef order period isPreview

section Sample

def stockAt (warehouseKey : String) : StockBalance where
  nomenclatureKey := "sku-1"
  characteristicKey := ""
  warehouseKey := warehouseKey
  quantity := 5

def pullOf (warehouseKey : String) : PullResult where
  warehouses := [{ refKey := warehouseKey, description := "Main" }]
  stocks := [stockAt warehouseKey]

def requestOf (readOk : Bool) (edits : List Edit) (warehouseKey : String) : SnapshotRequest :=
  pullToSnapshot (pullOf warehouseKey) (fun _ => none)
    (allowedWarehouses readOk (runEdits edits .empty)) walkAsStored "2026-09-23T00:00:00" false

/-- A list whose only warehouse is disabled lets it through, and so does a failed read of a list that
disables it next to an enabled one. -/
theorem disabled_warehouse_let_through :
    (Names (requestOf true [.upsert "wh-1" false "" 1] "wh-1") "wh-1" ∧
      ¬ LetsThrough (listAfter .empty [.upsert "wh-1" false "" 1]) "wh-1") ∧
    Names (requestOf false [.upsert "wh-1" false "" 1, .upsert "wh-2" true "" 1] "wh-1") "wh-1" ∧
      ¬ LetsThrough (listAfter .empty [.upsert "wh-1" false "" 1, .upsert "wh-2" true "" 1])
        "wh-1" := by
  have disabled : ∀ edits, listAfter .empty edits "wh-1" = some false →
      ¬ LetsThrough (listAfter .empty edits) "wh-1" := by
    intro edits given lets
    rcases lets with none_listed | enabled
    · rw [none_listed] at given
      cases given
    · rw [given] at enabled
      cases enabled
  refine ⟨⟨Or.inl (by decide), disabled _ (by decide)⟩, Or.inl (by decide), disabled _ (by decide)⟩

end Sample

end Scand.Inventory.AllowedWarehouses
