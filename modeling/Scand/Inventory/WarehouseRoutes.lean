/- path: Scand/Inventory/WarehouseRoutes
   layer: code model and its results
   digest: The routes of the allowed warehouses: after any requests the list that is returned is the map
   that the accepted requests built, in the order of the database. -/

import Scand.Inventory.AllowedWarehouses
import Scand.Inventory.Database

set_option autoImplicit false
set_option relaxedAutoImplicit false

namespace Scand.Inventory.WarehouseRoutes

open Scand.Foundation.KeyedTable
open Scand.Inventory.AllowedWarehouses
open Scand.Inventory.Database (WarehouseRow)

abbrev Params := List (String × String)

inductive Request
  | post (params : Params)
  | del (params : Params)

def warehouseId (params : Params) : Option String := (params.lookup "warehouse_id").filter (· ≠ "")

/-- What is neither `1` nor `true` is false, and what is missing is true. -/
def enabledParam (params : Params) : Bool :=
  match params.lookup "enabled" with
  | none => true
  | some text => text = "1" ∨ text = "true"

def noteParam (params : Params) : String := (params.lookup "note").getD ""

/-- How the transaction of a request ends: with its commit, or with an exception of the pool, the
connection or the database, which may hide that it took effect. -/
inductive Ending
  | committed
  | thrown (applied : Bool)
  deriving DecidableEq

def Ending.applies : Ending → Bool
  | .committed => true
  | .thrown applied => applied

def answer (ending : Ending) (before after : AllowedTable) : Nat × AllowedTable :=
  (if ending = .committed then 200 else 500, if ending.applies = true then after else before)

/-- A request: its status, and the table after it. -/
def respond (t : AllowedTable) (ending : Ending) : Request → Nat × AllowedTable
  | .post params =>
      match warehouseId params with
      | none => (400, t)
      | some id =>
          match upsert id 1 (enabledParam params) (noteParam params) t with
          | .ok u => answer ending t u
          | .error _ => (500, t)
  | .del params =>
      match warehouseId params with
      | none => (400, t)
      | some id => answer ending t (remove id 1 t)

def respondAll (requests : List (Request × Ending)) (t : AllowedTable) : AllowedTable :=
  requests.foldl (fun t request => (respond t request.2 request.1).2) t

/-- The order of texts in the database. -/
structure Collation where
  le : String → String → Bool
  trans : ∀ a b c, le a b = true → le b c = true → le a c = true
  total : ∀ a b, (le a b || le b a) = true

structure AllowedWarehouse where
  warehouseId : String
  enabled : Bool
  note : String
  deriving DecidableEq

def list (c : Collation) (tenantId : Int) (t : AllowedTable) : List AllowedWarehouse :=
  ((t.rows.filter fun r => r.tenantId = tenantId).mergeSort fun a b =>
      c.le a.warehouseId b.warehouseId).map fun r => ⟨r.warehouseId, r.enabled, r.note⟩

structure AllowedItem where
  warehouseId : String
  warehouseName : String
  enabled : Bool
  note : String
  deriving DecidableEq

/-- The name under which the last snapshot knows a warehouse. -/
def nameOf (warehouses : Table WarehouseRow WarehouseRow.key) (id : String) : String :=
  ((warehouses.rows.find? fun r => r.key = (1, id)).map WarehouseRow.warehouseName).getD ""

def allowedItems (c : Collation) (warehouses : Table WarehouseRow WarehouseRow.key)
    (t : AllowedTable) : List AllowedItem :=
  (list c 1 t).map fun w => ⟨w.warehouseId, nameOf warehouses w.warehouseId, w.enabled, w.note⟩

structure KnownItem where
  warehouseId : String
  warehouseName : String
  enabled : Bool
  deriving DecidableEq

def knownItems (c : Collation) (warehouses : Table WarehouseRow WarehouseRow.key)
    (t : AllowedTable) : List KnownItem :=
  ((warehouses.rows.filter fun r => r.tenantId = 1).mergeSort fun a b =>
      c.le a.warehouseName b.warehouseName).map fun r =>
    ⟨r.warehouseId, r.warehouseName, decide (r.warehouseId ∈ enabledIds 1 t)⟩

/-- `GET /api/warehouses/allowed`: an exception of one of its two reads is answered with 500. -/
def getAllowed (c : Collation) (listed named : Bool) (warehouses : Table WarehouseRow WarehouseRow.key)
    (t : AllowedTable) : Nat × Option (List AllowedItem) :=
  if listed && named then (200, some (allowedItems c warehouses t)) else (500, none)

def getKnown (c : Collation) (enabledRead named : Bool)
    (warehouses : Table WarehouseRow WarehouseRow.key) (t : AllowedTable) :
    Nat × Option (List KnownItem) :=
  if enabledRead && named then (200, some (knownItems c warehouses t)) else (500, none)

/-- What the routes are for: the warehouses that are listed, each enabled or not, with a note. -/
abbrev Directory := String → Option (Bool × String)

/-- The request names a warehouse, whose id its column takes where it is stored. -/
def Request.accepted : Request → Bool
  | .post params => (warehouseId params).any fun id => (varchar 64 id).toOption.isSome
  | .del params => (warehouseId params).isSome

def Request.params : Request → Params
  | .post params => params
  | .del params => params

/-- The status of a request, which the table has no part in. -/
def Request.status (request : Request) (ending : Ending) : Nat :=
  if (warehouseId request.params).isNone then 400
  else if request.accepted = true ∧ ending = .committed then 200
  else 500

/-- What a request means, when its transaction takes effect. -/
def Request.meaning (d : Directory) : Request → Directory
  | .post params =>
      match (warehouseId params).map (varchar 64) with
      | some (.ok id) => Function.update d id (some (enabledParam params, noteParam params))
      | _ => d
  | .del params =>
      match warehouseId params with
      | none => d
      | some id => Function.update d id none

/-- The directory after some requests: those without effect leave it as it was. -/
def meaningAll (requests : List (Request × Ending)) (d : Directory) : Directory :=
  requests.foldl (fun d request => if request.2.applies = true then request.1.meaning d else d) d

def directoryOf (t : AllowedTable) : Directory := fun id =>
  (t.rows.find? fun r => r.key = (1, id)).map fun r => (r.enabled, r.note)

def Holds (t : AllowedTable) (d : Directory) : Prop :=
  ∀ id enabled note,
    (⟨1, id, enabled, note⟩ : AllowedRow) ∈ t.rows ↔ d id = some (enabled, note)

section Requests

variable {t : AllowedTable} {d : Directory}

theorem respond_status (t : AllowedTable) (request : Request) (ending : Ending) :
    (respond t ending request).1 = request.status ending := by
  cases request with
  | post params =>
      cases named : warehouseId params with
      | none => simp [respond, Request.status, Request.params, named]
      | some id =>
          cases taken : varchar 64 id with
          | error e =>
              simp [respond, Request.status, Request.accepted, Request.params, named, taken,
                upsert_refused taken, Except.toOption]
          | ok stored =>
              obtain ⟨u, written, -⟩ := upsert_ok t (noteParam params) 1 (enabledParam params) taken
              simp [respond, Request.status, Request.accepted, Request.params, named, taken, written,
                answer, Except.toOption]
  | del params =>
      cases named : warehouseId params <;>
        simp [respond, Request.status, Request.accepted, Request.params, named, answer]

theorem Holds.upsert (holds : Holds t d) {u : AllowedTable} {id note : String} {enabled : Bool}
    (rows : ∀ r : AllowedRow, r ∈ u.rows ↔
      r = ⟨1, id, enabled, note⟩ ∨ (r ∈ t.rows ∧ r.key ≠ (1, id))) :
    Holds u (Function.update d id (some (enabled, note))) := by
  intro other state text
  rw [rows, holds]
  by_cases same : other = id
  · subst same
    simp [Prod.ext_iff, eq_comm]
  · simp [same]

theorem Holds.remove (holds : Holds t d) (id : String) :
    Holds (remove id 1 t) (Function.update d id none) := by
  intro other state text
  rw [AllowedWarehouses.remove, Table.delete_rows, List.mem_filter, holds]
  by_cases same : other = id
  · subst same
    simp
  · simp [same]

theorem Holds.respond (holds : Holds t d) (request : Request) (ending : Ending) :
    Holds (respond t ending request).2
      (if ending.applies = true then request.meaning d else d) := by
  have chosen : ∀ {u : AllowedTable} {e : Directory}, Holds u e →
      Holds (answer ending t u).2 (if ending.applies = true then e else d) := by
    intro u e written
    cases ending with
    | committed => exact written
    | thrown applied =>
        cases applied with
        | false => exact holds
        | true => exact written
  cases request with
  | post params =>
      simp only [WarehouseRoutes.respond, Request.meaning]
      cases warehouseId params with
      | none => simpa using holds
      | some id =>
          cases taken : varchar 64 id with
          | error e => simpa [upsert_refused taken, taken] using holds
          | ok stored =>
              obtain ⟨u, written, rows⟩ :=
                upsert_ok t (noteParam params) 1 (enabledParam params) taken
              simp only [written, Option.map_some, taken]
              exact chosen (holds.upsert rows)
  | del params =>
      simp only [WarehouseRoutes.respond, Request.meaning]
      cases warehouseId params with
      | none => simpa using holds
      | some id => exact chosen (holds.remove id)

theorem Holds.respondAll (holds : Holds t d) (requests : List (Request × Ending)) :
    Holds (respondAll requests t) (meaningAll requests d) := by
  induction requests generalizing t d with
  | nil => exact holds
  | cons request requests ih => exact ih (holds.respond request.1 request.2)

theorem holds_directoryOf (t : AllowedTable) : Holds t (directoryOf t) := by
  intro id enabled note
  simp only [directoryOf, Option.map_eq_some_iff, Table.find?_key_eq_some]
  constructor
  · intro mem
    exact ⟨_, ⟨mem, rfl⟩, rfl⟩
  · rintro ⟨⟨tenant, other, _, _⟩, ⟨mem, key⟩, same⟩
    obtain ⟨rfl, rfl⟩ := Prod.mk.inj key
    obtain ⟨rfl, rfl⟩ := Prod.mk.inj same
    exact mem

end Requests

section Lists

variable {t : AllowedTable} {d : Directory} (c : Collation)

theorem Holds.mem_list (holds : Holds t d) {w : AllowedWarehouse} :
    w ∈ list c 1 t ↔ d w.warehouseId = some (w.enabled, w.note) := by
  rw [← holds, list, List.mem_map]
  constructor
  · rintro ⟨⟨tenant, id, enabled, note⟩, mem, rfl⟩
    obtain ⟨listed, own⟩ := List.mem_filter.mp (List.mem_mergeSort.mp mem)
    have tenant_eq : tenant = 1 := by simpa using own
    exact tenant_eq ▸ listed
  · intro mem
    exact ⟨_, List.mem_mergeSort.mpr (List.mem_filter.mpr ⟨mem, by simp⟩), rfl⟩

theorem ids_nodup (t : AllowedTable) (tenantId : Int) :
    ((t.rows.filter fun r => r.tenantId = tenantId).map AllowedRow.warehouseId).Nodup := by
  have keys := t.unique.sublist (List.Sublist.map _ (List.filter_sublist
    (p := fun r => decide (r.tenantId = tenantId)) (l := t.rows)))
  rw [List.Nodup, List.pairwise_map] at keys ⊢
  refine keys.imp_of_mem ?_
  intro a b left right apart same
  have tenant_a : a.tenantId = tenantId := by simpa using (List.mem_filter.mp left).2
  have tenant_b : b.tenantId = tenantId := by simpa using (List.mem_filter.mp right).2
  exact apart (Prod.ext (tenant_a.trans tenant_b.symm) same)

theorem list_sorted (t : AllowedTable) :
    (list c 1 t).Pairwise fun a b =>
      c.le a.warehouseId b.warehouseId = true ∧ a.warehouseId ≠ b.warehouseId := by
  have sorted : ((t.rows.filter fun r => decide (r.tenantId = 1)).mergeSort
      fun a b => c.le a.warehouseId b.warehouseId).Pairwise
        fun a b => c.le a.warehouseId b.warehouseId = true :=
    List.pairwise_mergeSort (fun x y z => c.trans x.warehouseId y.warehouseId z.warehouseId)
      (fun x y => c.total x.warehouseId y.warehouseId) _
  have perm := List.mergeSort_perm (t.rows.filter fun r => decide (r.tenantId = 1))
    fun a b => c.le a.warehouseId b.warehouseId
  have distinct := (perm.map AllowedRow.warehouseId).nodup_iff.mpr (ids_nodup t 1)
  rw [List.Nodup, List.pairwise_map] at distinct
  rw [list, List.pairwise_map]
  exact sorted.and distinct

theorem Holds.mem_enabled (holds : Holds t d) {id : String} :
    id ∈ enabledIds 1 t ↔ ∃ note, d id = some (true, note) := by
  simp only [← holds _ _ _, enabledIds, List.mem_map, List.mem_filter, decide_eq_true_eq]
  constructor
  · rintro ⟨⟨tenant, other, enabled, note⟩, ⟨mem, own, on⟩, rfl⟩
    simp only at own on
    subst own on
    exact ⟨note, mem⟩
  · rintro ⟨note, mem⟩
    exact ⟨_, ⟨mem, rfl, rfl⟩, rfl⟩

end Lists

theorem getAllowed_answered {c : Collation} {listed named : Bool}
    {warehouses : Table WarehouseRow WarehouseRow.key} {t : AllowedTable} {shown : List AllowedItem}
    (answered : getAllowed c listed named warehouses t = (200, some shown)) :
    shown = allowedItems c warehouses t := by
  unfold getAllowed at answered
  split at answered
  · exact (Option.some.inj (Prod.mk.inj answered).2).symm
  · cases answered

theorem getKnown_answered {c : Collation} {enabledRead named : Bool}
    {warehouses : Table WarehouseRow WarehouseRow.key} {t : AllowedTable} {shown : List KnownItem}
    (answered : getKnown c enabledRead named warehouses t = (200, some shown)) :
    shown = knownItems c warehouses t := by
  unfold getKnown at answered
  split at answered
  · exact (Option.some.inj (Prod.mk.inj answered).2).symm
  · cases answered

/-- After any requests, with exceptions at any of them, the list that is answered shows each warehouse
once, in order, as the last request about it that took effect left it, and a pull reads the warehouses
that it shows as enabled; a request is answered by its parameters and by how its transaction ends. -/
theorem allowed_items_after_requests (c : Collation)
    (warehouses : Table WarehouseRow WarehouseRow.key) (t : AllowedTable)
    (requests : List (Request × Ending)) :
    let after := respondAll requests t
    let d := meaningAll requests (directoryOf t)
    (∀ listed named shown, getAllowed c listed named warehouses after = (200, some shown) →
      (∀ item, item ∈ shown ↔ d item.warehouseId = some (item.enabled, item.note) ∧
        item.warehouseName = nameOf warehouses item.warehouseId) ∧
      shown.Pairwise fun a b =>
        c.le a.warehouseId b.warehouseId = true ∧ a.warehouseId ≠ b.warehouseId) ∧
    (∀ enabledRead named shown, getKnown c enabledRead named warehouses after = (200, some shown) →
      ∀ item ∈ shown, item.enabled = true ↔ ∃ note, d item.warehouseId = some (true, note)) ∧
    (∀ id, id ∈ enabledIds 1 after ↔ ∃ note, d id = some (true, note)) ∧
    ∀ before request ending rest, requests = before ++ (request, ending) :: rest →
      (respond (respondAll before t) ending request).1 = request.status ending := by
  intro after d
  have holds : Holds after d := (holds_directoryOf t).respondAll requests
  refine ⟨?_, ?_, ?_, ?_⟩
  · intro listed named shown answered
    rw [getAllowed_answered answered]
    constructor
    · intro item
      rw [allowedItems, List.mem_map]
      constructor
      · rintro ⟨w, mem, rfl⟩
        exact ⟨(holds.mem_list c).mp mem, rfl⟩
      · rintro ⟨entry, known⟩
        refine ⟨⟨item.warehouseId, item.enabled, item.note⟩, (holds.mem_list c).mpr entry, ?_⟩
        rw [← known]
    · rw [allowedItems, List.pairwise_map]
      exact list_sorted c after
  · intro enabledRead named shown answered item mem
    rw [getKnown_answered answered] at mem
    obtain ⟨r, -, rfl⟩ := List.mem_map.mp mem
    rw [decide_eq_true_eq]
    exact holds.mem_enabled
  · intro id
    exact holds.mem_enabled
  · intro before request ending rest _
    exact respond_status _ request ending

section Sample

def byCodePoints : Collation where
  le a b := decide (a ≤ b)
  trans a b c first second :=
    decide_eq_true (String.le_trans (of_decide_eq_true first) (of_decide_eq_true second))
  total a b := by
    rw [Bool.or_eq_true, decide_eq_true_eq, decide_eq_true_eq]
    exact String.le_total a b

def mainWarehouse : Table WarehouseRow WarehouseRow.key where
  rows := [{ tenantId := 1, warehouseId := "wh-1", warehouseName := "Main" }]
  unique := by simp

def someRequests : List (Request × Ending) := [
  (.post [("warehouse_id", "wh-2"), ("note", "new")], .thrown true),
  (.post [("warehouse_id", "wh-1")], .committed),
  (.post [("warehouse_id", "wh-3"), ("enabled", "true")], .committed),
  (.post [("warehouse_id", "wh-1"), ("enabled", "no"), ("note", "closed")], .committed),
  (.del [("warehouse_id", "wh-3")], .committed),
  (.del [("warehouse_id", "wh-2")], .thrown false),
  (.del [], .committed)]

private theorem someRequests_meaning (id : String) :
    meaningAll someRequests (directoryOf .empty) id =
      if id = "wh-2" then some (true, "new") else if id = "wh-1" then some (false, "closed")
      else none := by
  by_cases second : id = "wh-2"
  · subst second
    decide
  · by_cases first : id = "wh-1"
    · subst first
      decide
    · by_cases third : id = "wh-3"
      · subst third
        decide
      · rw [if_neg second, if_neg first]
        have others : meaningAll someRequests (directoryOf .empty) id =
            Function.update (Function.update (Function.update (Function.update (Function.update
              (directoryOf .empty) "wh-2" (some (true, "new"))) "wh-1" (some (true, "")))
              "wh-3" (some (true, ""))) "wh-1" (some (false, "closed"))) "wh-3" none id := rfl
        rw [others]
        simp only [Function.update_of_ne second, Function.update_of_ne first,
          Function.update_of_ne third]
        rfl

theorem allowed_items_after_requests_some :
    (∃ shown, getAllowed byCodePoints true true mainWarehouse (respondAll someRequests .empty) =
        (200, some shown) ∧
      (∀ item, item ∈ shown ↔
        item = ⟨"wh-1", "Main", false, "closed"⟩ ∨ item = ⟨"wh-2", "", true, "new"⟩) ∧
      (shown.map AllowedItem.warehouseId).Pairwise fun a b => a ≤ b ∧ a ≠ b) ∧
    (∀ id, id ∈ enabledIds 1 (respondAll someRequests .empty) ↔ id = "wh-2") ∧
    someRequests.map (fun request => request.1.status request.2) =
      [500, 200, 200, 200, 200, 500, 400] := by
  obtain ⟨allowed, -, enabled, -⟩ :=
    allowed_items_after_requests byCodePoints mainWarehouse .empty someRequests
  obtain ⟨items, sorted⟩ := allowed true true _ rfl
  have ordered : ((allowedItems byCodePoints mainWarehouse (respondAll someRequests .empty)).map
      AllowedItem.warehouseId).Pairwise fun a b => a ≤ b ∧ a ≠ b := by
    rw [List.pairwise_map]
    exact sorted.imp fun given => ⟨of_decide_eq_true given.1, given.2⟩
  refine ⟨⟨_, rfl, fun item => ?_, ordered⟩, fun id => ?_, by decide⟩
  · obtain ⟨id, name, state, note⟩ := item
    rw [items, someRequests_meaning]
    by_cases second : id = "wh-2"
    · subst second
      have none_known : nameOf mainWarehouse "wh-2" = "" := by decide
      simp [none_known, and_comm, eq_comm]
    · by_cases first : id = "wh-1"
      · subst first
        have known : nameOf mainWarehouse "wh-1" = "Main" := by decide
        simp [known, and_comm, eq_comm]
      · simp [first, second]
  · rw [enabled, someRequests_meaning]
    by_cases second : id = "wh-2"
    · simp [second]
    · by_cases first : id = "wh-1" <;> simp [first, second]

end Sample

end Scand.Inventory.WarehouseRoutes
