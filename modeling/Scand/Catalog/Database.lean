/- path: Scand/Catalog/Database
   layer: code model
   digest: The tables that a catalogue pull writes, and its statements: the DELETE, the COPY and the
   UPDATE of each link table. -/

import Scand.Catalog.Normalize
import Scand.Inventory.Database

set_option autoImplicit false
set_option relaxedAutoImplicit false

namespace Scand.Catalog.Database

open Scand.Catalog.Normalize (OneCProductRecord)
open Scand.Foundation.KeyedTable (SqlError Table)
open Scand.Inventory.Database

inductive LinkTable
  | inventory1cStocks | pricingCostBatch | pricingCostSupplier
  deriving DecidableEq

/-- The ways in which PostgreSQL refuses a statement of the pull. -/
inductive SqlFailure
  | undefinedTable (table : LinkTable)
  | data (e : SqlError)
  | characterNotInRepertoire

/-- The tables of a pull. A link table may be absent; `inventory1c_products` is there. -/
structure CatalogDb where
  products : Table CatalogRow CatalogRow.key
  products_ref_unique : (products.rows.map CatalogRow.refKeyOf).Nodup
  stocks : Option (Table StockRow StockRow.key)
  costBatch : Option (Table CostBatchRow CostBatchRow.key)
  costSupplier : Option (Table CostSupplierRow CostSupplierRow.key)

/-- A text for a column `VARCHAR(n)`: too many blanks at its end are cut, and no text has a NUL. -/
def varcharInput (n : Nat) (s : String) : Except SqlFailure String :=
  if Char.ofNat 0 ∈ s.toList then .error .characterNotInRepertoire
  else if s.length ≤ n then .ok s
  else if (s.toList.drop n).all (· = ' ') then .ok (String.ofList (s.toList.take n))
  else .error (.data .stringDataRightTruncation)

/-- A line of the COPY; `measuredAt` is the instant of the text in the record. -/
def storedRow (tenantId measuredAt : Int) (rec : OneCProductRecord) : Except SqlFailure CatalogRow := do
  let code ← varcharInput 64 rec.code
  let article ← varcharInput 128 rec.article
  let name ← varcharInput 512 rec.name
  let refKey ← varcharInput 36 rec.refKey
  return {
    tenantId := tenantId, code := code, article := some article, name := some name
    refKey := refKey, measuredAt := measuredAt }

def deleteProducts (tenantId : Int) (db : CatalogDb) : CatalogDb :=
  { db with
    products := db.products.delete fun r => r.tenantId = tenantId
    products_ref_unique := db.products_ref_unique.sublist
      (List.filter_sublist.map CatalogRow.refKeyOf) }

def copyProducts (tenantId measuredAt : Int) (records : List OneCProductRecord) (db : CatalogDb) :
    Except SqlFailure CatalogDb :=
  match records.mapM (storedRow tenantId measuredAt) with
  | .error e => .error e
  | .ok rows =>
      match db.products.insertAll rows with
      | .error e => .error (.data e)
      | .ok t =>
          if unique : (t.rows.map CatalogRow.refKeyOf).Nodup then
            .ok { db with products := t, products_ref_unique := unique }
          else .error (.data .uniqueViolation)

/-- How PostgreSQL chooses among the products that an UPDATE joins to one row; the row is named by the
texts that tell it from the others. -/
structure Joining where
  pick : List String → List CatalogRow → Option CatalogRow
  pick_mem : ∀ row products p, pick row products = some p → p ∈ products
  pick_isSome : ∀ row products, products ≠ [] → (pick row products).isSome = true

structure LinkColumns (ρ : Type) {κ : Type} (key : ρ → κ) where
  tenantId : ρ → Int
  sku1c : ρ → String
  onecCode : ρ → Option String
  setOnecCode : ρ → String → ρ
  label : ρ → List String
  keeps : ∀ r code, key (setOnecCode r code) = key r

namespace LinkColumns

variable {ρ κ : Type} {key : ρ → κ} (cols : LinkColumns ρ key)

def joined (tenantId : Int) (products : List CatalogRow) (r : ρ) : List CatalogRow :=
  products.filter fun p => p.tenantId = tenantId ∧ p.article = some (cols.sku1c r)

def filled (joining : Joining) (tenantId : Int) (products : List CatalogRow) (r : ρ) : Option ρ :=
  if cols.tenantId r = tenantId ∧ cols.onecCode r = none then
    (joining.pick (cols.label r) (cols.joined tenantId products r)).map fun p =>
      cols.setOnecCode r p.code
  else none

theorem filled_keeps {joining : Joining} {tenantId : Int} {products : List CatalogRow} (r : ρ) :
    key ((cols.filled joining tenantId products r).getD r) = key r := by
  unfold filled
  split
  · cases joining.pick (cols.label r) (cols.joined tenantId products r) with
    | none => rfl
    | some p => exact cols.keeps r p.code
  · rfl

/-- `UPDATE ... SET onec_code = p.code FROM inventory1c_products AS p`, with the number of rows that
it changes. -/
def migrate (joining : Joining) (tenantId : Int) (products : List CatalogRow) (t : Table ρ key) :
    Table ρ key × Nat :=
  (t.update (fun r => (cols.filled joining tenantId products r).getD r) cols.filled_keeps,
    t.rows.countP fun r => (cols.filled joining tenantId products r).isSome)

/-- What the UPDATE is for: a row of the tenant without a code gets that of a product with its
article, if there is one, and any other row stays as it is. -/
def FilledRow (tenantId : Int) (products : List CatalogRow) (r r' : ρ) : Prop :=
  if cols.tenantId r = tenantId ∧ cols.onecCode r = none ∧ cols.joined tenantId products r ≠ [] then
    ∃ p ∈ cols.joined tenantId products r, r' = cols.setOnecCode r p.code
  else r' = r

theorem filledRow_filled (joining : Joining) (tenantId : Int) (products : List CatalogRow) (r : ρ) :
    cols.FilledRow tenantId products r ((cols.filled joining tenantId products r).getD r) := by
  unfold FilledRow filled
  by_cases mine : cols.tenantId r = tenantId ∧ cols.onecCode r = none
  · rw [if_pos mine]
    cases picked : joining.pick (cols.label r) (cols.joined tenantId products r) with
    | none =>
        have nothing : cols.joined tenantId products r = [] := by
          by_contra some_joined
          have found := joining.pick_isSome (cols.label r) _ some_joined
          rw [picked] at found
          cases found
        rw [if_neg fun all => all.2.2 nothing]
        rfl
    | some p =>
        have mem := joining.pick_mem _ _ p picked
        rw [if_pos ⟨mine.1, mine.2, List.ne_nil_of_mem mem⟩]
        exact ⟨p, mem, rfl⟩
  · rw [if_neg mine, if_neg fun all => mine ⟨all.1, all.2.1⟩]
    rfl

end LinkColumns

def stockColumns : LinkColumns StockRow StockRow.key where
  tenantId r := r.tenantId
  sku1c r := r.sku1c
  onecCode r := r.onecCode
  setOnecCode r code := { r with onecCode := some code }
  label r := ["inventory1c_stocks", r.sku1c, r.warehouseId]
  keeps _ _ := rfl

def costBatchColumns : LinkColumns CostBatchRow CostBatchRow.key where
  tenantId r := r.tenantId
  sku1c r := r.sku1c
  onecCode r := r.onecCode
  setOnecCode r code := { r with onecCode := some code }
  label r := ["pricing_cost_batch", r.sku1c]
  keeps _ _ := rfl

def costSupplierColumns : LinkColumns CostSupplierRow CostSupplierRow.key where
  tenantId r := r.tenantId
  sku1c r := r.sku1c
  onecCode r := r.onecCode
  setOnecCode r code := { r with onecCode := some code }
  label r := ["pricing_cost_supplier", r.sku1c]
  keeps _ _ := rfl

def migrate (joining : Joining) (tenantId : Int) (table : LinkTable) (db : CatalogDb) :
    Except SqlFailure (CatalogDb × Nat) :=
  let products := db.products.rows
  match table with
  | .inventory1cStocks =>
      match db.stocks with
      | none => .error (.undefinedTable table)
      | some t =>
          let (t, affected) := stockColumns.migrate joining tenantId products t
          .ok ({ db with stocks := some t }, affected)
  | .pricingCostBatch =>
      match db.costBatch with
      | none => .error (.undefinedTable table)
      | some t =>
          let (t, affected) := costBatchColumns.migrate joining tenantId products t
          .ok ({ db with costBatch := some t }, affected)
  | .pricingCostSupplier =>
      match db.costSupplier with
      | none => .error (.undefinedTable table)
      | some t =>
          let (t, affected) := costSupplierColumns.migrate joining tenantId products t
          .ok ({ db with costSupplier := some t }, affected)

def CatalogDb.has (db : CatalogDb) : LinkTable → Bool
  | .inventory1cStocks => db.stocks.isSome
  | .pricingCostBatch => db.costBatch.isSome
  | .pricingCostSupplier => db.costSupplier.isSome

theorem migrate_absent {joining : Joining} {tenantId : Int} {table : LinkTable} {db : CatalogDb}
    (absent : db.has table = false) :
    migrate joining tenantId table db = .error (.undefinedTable table) := by
  cases table <;> simp only [CatalogDb.has, Option.isSome_eq_false_iff, Option.isNone_iff_eq_none]
    at absent <;> simp [migrate, absent]

end Scand.Catalog.Database
