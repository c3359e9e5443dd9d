/- path: Scand/InventoryPull/Selection
   layer: code model and its results
   digest: The SELECT of the products that the two ka2 requests and the worker of an inventory pull
   build from the query parameters, and when all three select the same. -/

import Scand.InventoryPull.Jobs

set_option autoImplicit false
set_option relaxedAutoImplicit false

namespace Scand.InventoryPull.Selection

open Scand.Foundation.JsonValue (stoll)
open Scand.Inventory.Database
open Scand.Inventory.Endpoints
open Scand.InventoryPull.Jobs (selectSkus)

inductive Condition
  | refKey (value : String)
  | article (value : String)
  | orderByIdLimit (n : Int)
  | everything
  deriving DecidableEq

/-- The order in which a statement without ORDER BY returns its rows. -/
structure ScanOrder where
  walk : List CatalogRow → List CatalogRow
  perm : ∀ rows, (walk rows).Perm rows

def asStored : ScanOrder := ⟨id, List.Perm.refl⟩

/-- The statement of `POST /api/inventory/ka2/preview`, and of `POST /api/inventory/ka2/save`. -/
def ka2Condition (q : InventoryQuery) : Condition :=
  -- a limit that cannot be read leaves the -1 that the variable starts with
  let limitN := (stoll q.limit).getD (-1)
  if q.refKey ≠ "" then .refKey q.refKey
  else if q.offer ≠ "" then .article q.offer
  else if limitN > 0 then .orderByIdLimit limitN
  else .everything

/-- The statement of the worker of `POST /api/1c/inventory-pulls`. -/
def workerCondition (q : InventoryQuery) : Condition :=
  if q.refKey ≠ "" then .refKey q.refKey
  else if q.offer ≠ "" then .article q.offer
  else match stoll q.limit with
    | some limitN => .orderByIdLimit limitN
    | none => .everything

def tenantProducts (db : InventoryDb) : List CatalogRow :=
  db.products.rows.filter fun p => p.tenantId = 1

def execute (scan : ScanOrder) (db : InventoryDb) : Condition → Except String (List CatalogRow)
  | .refKey value => .ok ((scan.walk (tenantProducts db)).filter fun p => p.refKey = value)
  | .article value => .ok ((scan.walk (tenantProducts db)).filter fun p => p.article = some value)
  | .orderByIdLimit n =>
      if n < 0 then .error "LIMIT must not be negative"
      else .ok ((tenantProducts db).take n.toNat)
  | .everything => .ok (scan.walk (tenantProducts db))

inductive Refusal
  | failed (what : String)
  | empty (text : String)
  deriving DecidableEq

structure Selected where
  productKeys : List String
  offerByRef : String → Option String

def finish (noProducts : String) : Except String (List CatalogRow) → Except Refusal Selected
  | .error what => .error (.failed what)
  | .ok rows =>
      if rows.isEmpty then .error (.empty noProducts)
      else .ok { productKeys := rows.map CatalogRow.refKey, offerByRef := offerByRef rows }

def pullFirst : String :=
  "inventory1c_products is empty, run /api/onec/product-catalog/pull first"

def ka2Preview (scan : ScanOrder) (q : InventoryQuery) (db : InventoryDb) : Except Refusal Selected :=
  finish pullFirst (execute scan db (ka2Condition q))

def ka2Save (scan : ScanOrder) (q : InventoryQuery) (db : InventoryDb) : Except Refusal Selected :=
  finish pullFirst (execute scan db (ka2Condition q))

def worker (scan : ScanOrder) (q : InventoryQuery) (db : InventoryDb) : Except Refusal Selected :=
  finish "inventory1c_products is empty" (execute scan db (workerCondition q))

/-- The same products with the same offers, or no products either time. -/
def SameProducts : Except Refusal Selected → Except Refusal Selected → Prop
  | .ok a, .ok b => (∀ key, key ∈ a.productKeys ↔ key ∈ b.productKeys) ∧ a.offerByRef = b.offerByRef
  | .error _, .error _ => True
  | _, _ => False

section Offers

variable {rows rows' : List CatalogRow}

theorem offerByRef_eq_some (distinct : (rows.map CatalogRow.refKey).Nodup) {key article : String} :
    offerByRef rows key = some article ↔
      ∃ p ∈ rows, p.refKey = key ∧ p.article = some article ∧ article ≠ "" := by
  unfold offerByRef
  constructor
  · intro found
    obtain ⟨p, at_key, stated⟩ := Option.bind_eq_some_iff.mp found
    have mem := List.mem_reverse.mp (List.mem_of_find?_eq_some at_key)
    have key_eq : p.refKey = key := by simpa using List.find?_some at_key
    obtain ⟨given, filled⟩ := List.mem_filter.mp mem
    exact ⟨p, given, key_eq, stated, by simpa [stated] using filled⟩
  · rintro ⟨p, given, rfl, stated, filled⟩
    have mem : p ∈ (rows.filter fun p => p.article.getD "" ≠ "").reverse :=
      List.mem_reverse.mpr (List.mem_filter.mpr ⟨given, by simpa [stated] using filled⟩)
    cases found : (rows.filter fun p => p.article.getD "" ≠ "").reverse.find?
        fun r => r.refKey = p.refKey with
    | none => simpa using List.find?_eq_none.mp found p mem
    | some r =>
        have same_key : r.refKey = p.refKey := by simpa using List.find?_some found
        have listed := (List.mem_filter.mp
          (List.mem_reverse.mp (List.mem_of_find?_eq_some found))).1
        have same : r = p := List.inj_on_of_nodup_map distinct listed given same_key
        rw [same]
        exact stated

theorem offerByRef_perm (distinct : (rows.map CatalogRow.refKey).Nodup) (perm : rows.Perm rows') :
    offerByRef rows = offerByRef rows' := by
  have distinct' : (rows'.map CatalogRow.refKey).Nodup := (perm.map _).nodup_iff.mp distinct
  funext key
  apply Option.ext
  intro article
  rw [offerByRef_eq_some distinct, offerByRef_eq_some distinct']
  simp only [perm.mem_iff]

theorem finish_nil (text : String) : finish text (.ok []) = .error (.empty text) := rfl

theorem finish_rows (text : String) (some_left : rows ≠ []) :
    finish text (.ok rows) =
      .ok { productKeys := rows.map CatalogRow.refKey, offerByRef := offerByRef rows } := by
  unfold finish
  simp [some_left]

theorem sameProducts_of_perm {text text' : String}
    (distinct : (rows.map CatalogRow.refKey).Nodup) (perm : rows.Perm rows') :
    SameProducts (finish text (.ok rows)) (finish text' (.ok rows')) := by
  by_cases none_left : rows = []
  · obtain rfl : rows' = [] := by
      rw [none_left] at perm
      exact perm.symm.eq_nil
    rw [none_left, finish_nil, finish_nil]
    trivial
  · have some_left : rows' ≠ [] := by
      rintro rfl
      exact none_left perm.eq_nil
    rw [finish_rows text none_left, finish_rows text' some_left]
    exact ⟨fun key => (perm.map _).mem_iff, offerByRef_perm distinct perm⟩

end Offers

section Agreement

variable {q : InventoryQuery} {db : InventoryDb} {scan scan' : ScanOrder}

theorem nodup_refKeys (db : InventoryDb) : ((tenantProducts db).map CatalogRow.refKey).Nodup := by
  have all : ((tenantProducts db).map CatalogRow.refKeyOf).Nodup :=
    db.products_ref_unique.sublist (List.filter_sublist.map _)
  have pairs : (tenantProducts db).map CatalogRow.refKeyOf =
      ((tenantProducts db).map CatalogRow.refKey).map (Prod.mk 1) := by
    rw [List.map_map]
    refine List.map_congr_left fun p mem => ?_
    have tenant : p.tenantId = 1 := by simpa using (List.mem_filter.mp mem).2
    simp [CatalogRow.refKeyOf, tenant]
  rw [pairs] at all
  exact all.of_map _

theorem execute_limit (scan : ScanOrder) (db : InventoryDb) (n : Int) :
    execute scan db (.orderByIdLimit n) =
      if n < 0 then .error "LIMIT must not be negative"
      else .ok ((tenantProducts db).take n.toNat) := rfl

theorem sameProducts_execute (condition : Condition) (text text' : String) :
    SameProducts (finish text (execute scan db condition))
      (finish text' (execute scan' db condition)) := by
  have walks : (scan.walk (tenantProducts db)).Perm (scan'.walk (tenantProducts db)) :=
    (scan.perm _).trans (scan'.perm _).symm
  have distinct : ((scan.walk (tenantProducts db)).map CatalogRow.refKey).Nodup :=
    ((scan.perm _).map _).nodup_iff.mpr (nodup_refKeys db)
  cases condition with
  | refKey value =>
      exact sameProducts_of_perm (distinct.sublist (List.filter_sublist.map _)) (walks.filter _)
  | article value =>
      exact sameProducts_of_perm (distinct.sublist (List.filter_sublist.map _)) (walks.filter _)
  | everything => exact sameProducts_of_perm distinct walks
  | orderByIdLimit n =>
      rw [execute_limit, execute_limit]
      split
      · trivial
      · exact sameProducts_of_perm
          ((nodup_refKeys db).sublist ((List.take_sublist _ _).map _)) (List.Perm.refl _)

theorem conditions_eq_iff :
    ka2Condition q = workerCondition q ↔
      q.refKey ≠ "" ∨ q.offer ≠ "" ∨ ∀ n, stoll q.limit = some n → 0 < n := by
  unfold ka2Condition workerCondition
  by_cases by_ref : q.refKey = ""
  · by_cases by_offer : q.offer = ""
    · cases read : stoll q.limit with
      | none => simp [by_ref, by_offer]
      | some n =>
          by_cases above : n > 0
          · simp [by_ref, by_offer, above]
          · simp [by_ref, by_offer, above]
    · simp [by_ref, by_offer]
  · simp [by_ref]

theorem finish_of_no_products (none_left : tenantProducts db = []) (text : String)
    (condition : Condition) :
    ∃ e, finish text (execute scan db condition) = .error e := by
  have walk : scan.walk [] = [] := (scan.perm []).eq_nil
  cases condition with
  | orderByIdLimit n =>
      rw [execute_limit]
      split
      · exact ⟨_, rfl⟩
      · exact ⟨_, by rw [none_left, List.take_nil, finish_nil]⟩
  | refKey value => exact ⟨.empty text, by rw [execute, none_left, walk]; rfl⟩
  | article value => exact ⟨.empty text, by rw [execute, none_left, walk]; rfl⟩
  | everything => exact ⟨.empty text, by rw [execute, none_left, walk]; rfl⟩

theorem finish_of_limit {n : Int} (limit : n ≤ 0) (text : String) :
    ∃ e, finish text (execute scan db (.orderByIdLimit n)) = .error e := by
  rw [execute_limit]
  split
  · exact ⟨_, rfl⟩
  · have zero : n.toNat = 0 := by omega
    exact ⟨_, by rw [zero, List.take_zero, finish_nil]⟩

end Agreement

/-- What the three selections have to agree on. -/
structure Agree (previewScan saveScan workerScan : ScanOrder) (q : InventoryQuery)
    (db : InventoryDb) : Prop where
  save : SameProducts (ka2Preview previewScan q db) (ka2Save saveScan q db)
  worker : SameProducts (ka2Preview previewScan q db) (worker workerScan q db)

/-- The three selections agree exactly when a reference or an offer is given, the limit is not a number
below 1, or the tenant has no product at all. -/
theorem selections_agree_iff (previewScan saveScan workerScan : ScanOrder) (q : InventoryQuery)
    (db : InventoryDb) :
    Agree previewScan saveScan workerScan q db ↔
      q.refKey ≠ "" ∨ q.offer ≠ "" ∨ (∀ n, stoll q.limit = some n → 0 < n) ∨
        tenantProducts db = [] := by
  constructor
  · intro agree
    by_contra other
    push Not at other
    obtain ⟨by_ref, by_offer, ⟨n, read, limit⟩, some_left⟩ := other
    have everything : ka2Condition q = .everything := by
      have refused : ¬ n > 0 := by omega
      simp [ka2Condition, by_ref, by_offer, read, refused]
    have limited : workerCondition q = .orderByIdLimit n := by
      simp [workerCondition, by_ref, by_offer, read]
    obtain ⟨e, refused⟩ : ∃ e, worker workerScan q db = .error e := by
      rw [worker, limited]
      exact finish_of_limit limit _
    have walked : previewScan.walk (tenantProducts db) ≠ [] := by
      intro none_walked
      have perm := previewScan.perm (tenantProducts db)
      rw [none_walked] at perm
      exact some_left perm.symm.eq_nil
    have apart := agree.worker
    rw [ka2Preview, everything, refused, execute, finish_rows _ walked] at apart
    exact apart
  · intro given
    refine ⟨sameProducts_execute _ _ _, ?_⟩
    by_cases same : ka2Condition q = workerCondition q
    · rw [ka2Preview, worker, same]
      exact sameProducts_execute _ _ _
    · have none_left : tenantProducts db = [] := by
        by_contra some_left
        refine same (conditions_eq_iff.mpr ?_)
        rcases given with by_ref | by_offer | number | none_left
        · exact Or.inl by_ref
        · exact Or.inr (Or.inl by_offer)
        · exact Or.inr (Or.inr number)
        · exact absurd none_left some_left
      obtain ⟨e, preview⟩ : ∃ e, ka2Preview previewScan q db = .error e :=
        finish_of_no_products none_left _ _
      obtain ⟨e', work⟩ : ∃ e, worker workerScan q db = .error e :=
        finish_of_no_products none_left _ _
      rw [preview, work]
      trivial

section Requests

/-- The worker's statement on rows in the order of the table. -/
theorem selectSkus_eq (q : InventoryQuery) (db : InventoryDb) :
    selectSkus q db = execute asStored db (workerCondition q) := by
  unfold selectSkus workerCondition
  by_cases by_ref : q.refKey = ""
  · by_cases by_offer : q.offer = ""
    · cases read : stoll q.limit with
      | none => simp [by_ref, by_offer, selectProducts, execute, asStored, tenantProducts]
      | some n => simp [by_ref, by_offer, selectProducts, execute, tenantProducts]
    · cases read : stoll q.limit <;>
        simp [by_ref, by_offer, selectProducts, execute, asStored, tenantProducts]
  · cases read : stoll q.limit <;>
      simp [by_ref, selectProducts, execute, asStored, tenantProducts]

/-- The saving request goes on with the rows of its statement. -/
theorem ka2SaveSnapshot_eq (env : Surroundings) (q : InventoryQuery) (db : InventoryDb) :
    ka2SaveSnapshot env q db =
      (execute asStored db (ka2Condition q)).bind fun rows => snapshotOf env q rows pullFirst := by
  unfold ka2SaveSnapshot ka2Condition
  by_cases by_ref : q.refKey = ""
  · by_cases by_offer : q.offer = ""
    · cases read : stoll q.limit with
      | none =>
          simp [by_ref, by_offer, selectProducts, execute, asStored, tenantProducts, Except.bind,
            pullFirst]
      | some n =>
          by_cases above : n > 0
          · have fine : ¬ n < 0 := by omega
            have kept : (some n).filter (· > 0) = some n := by simpa using above
            simp [by_ref, by_offer, above, fine, kept, selectProducts, execute, tenantProducts,
              Except.bind, pullFirst]
          · have dropped : (some n).filter (· > 0) = none := by simpa using above
            simp [by_ref, by_offer, above, dropped, selectProducts, execute, asStored,
              tenantProducts, Except.bind, pullFirst]
    · simp [by_ref, by_offer, selectProducts, execute, asStored, tenantProducts, Except.bind,
        pullFirst]
  · simp [by_ref, selectProducts, execute, asStored, tenantProducts, Except.bind, pullFirst]

end Requests

/-- With the limit 0 the preview selects the two products of the table and the worker none. -/
theorem zero_limit_selects_nothing :
    ka2Preview asStored { limit := "0" } pricedDb ≠ .error (.empty pullFirst) ∧
      (∃ selected, ka2Preview asStored { limit := "0" } pricedDb = .ok selected ∧
        selected.productKeys = ["sku-1", "sku-2"]) ∧
      (∃ e, worker asStored { limit := "0" } pricedDb = .error e) ∧
      ¬ Agree asStored asStored asStored { limit := "0" } pricedDb := by
  refine ⟨nofun, ⟨_, rfl, by decide⟩, ⟨_, rfl⟩, fun agree => ?_⟩
  exact agree.worker

end Scand.InventoryPull.Selection
