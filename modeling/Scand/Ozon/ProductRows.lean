/- path: Scand/Ozon/ProductRows
   layer: code model
   digest: When upsert_batch_ozon commits, and the rows of products that it then leaves. -/

import Scand.Ozon.Service

set_option autoImplicit false
set_option relaxedAutoImplicit false

namespace Scand.Ozon.ProductRows

open Scand.Foundation.JsonValue (Number)
open Scand.Foundation.KeyedTable
open Scand.Ozon.Client
open Scand.Ozon.Service

def committed (details : List OzonProduct) (r : Reply) : Bool :=
  details.isEmpty || (r.dbOk && (upsertBatchOzon .empty details).toOption.isSome)

theorem upsertBatchOzon_accepts (t u : Table OzonProduct OzonProduct.id)
    (products : List OzonProduct) :
    (upsertBatchOzon t products).toOption.isSome = (upsertBatchOzon u products).toOption.isSome := by
  unfold upsertBatchOzon
  cases products.mapM productRow with
  | error e => rfl
  | ok rows =>
      simp only [ok_bind, Table.upsertAll]
      split <;> rfl

def roundNumber (scale : Nat) : Number → Number
  | .finite q => .finite (roundTo scale q)
  | other => other

theorem numericDouble_value {precision scale : Nat} {x y : Number}
    (fits : numericDouble precision scale x = .ok y) : y = roundNumber scale x := by
  cases x with
  | finite q =>
      cases rounded : numeric precision scale q with
      | error e =>
          rw [numericDouble, rounded] at fits
          cases fits
      | ok r =>
          rw [numericDouble, rounded] at fits
          cases fits
          rw [roundNumber, numeric_value rounded]
  | infinite negative => cases fits
  | nan =>
      cases fits
      rfl

def storedRow (p : OzonProduct) : OzonProduct := { p with price := roundNumber 2 p.price }

theorem productRow_ok {p row : OzonProduct} (h : productRow p = .ok row) : row = storedRow p := by
  obtain ⟨price, rounded, h⟩ := bind_ok h
  cases h
  rw [storedRow, numericDouble_value rounded]

theorem map_id_withPrices (named prices : List OzonProduct) :
    (withPrices named prices).map OzonProduct.id = named.map OzonProduct.id := by
  rw [withPrices, List.map_map]
  apply List.map_congr_left
  intro p _
  simp only [Function.comp_apply]
  split <;> rfl

theorem mem_upsertProducts {s : Shared} {r : Reply} {details : List OzonProduct}
    (ok : committed details r = true) {row : OzonProduct} :
    row ∈ (upsertProducts s r.dbOk details).products.rows ↔
      row ∈ details.map storedRow ∨
        (row ∈ s.products.rows ∧ row.id ∉ details.map OzonProduct.id) := by
  simp only [committed, Bool.or_eq_true, List.isEmpty_iff, Bool.and_eq_true] at ok
  rcases ok with rfl | ⟨alive, accepted⟩
  · have same : (upsertProducts s r.dbOk []).products = s.products := by
      cases r.dbOk <;> rfl
    simp [same]
  · rw [upsertBatchOzon_accepts _ s.products] at accepted
    cases written : upsertBatchOzon s.products details with
    | error e =>
        rw [written] at accepted
        cases accepted
    | ok table =>
        obtain ⟨rows, copied, stored⟩ := bind_ok written
        obtain rfl := mapM_eq_map (g := storedRow) (fun _ _ => productRow_ok) copied
        simp only [upsertProducts, alive, written]
        rw [Table.mem_upsertAll_replace (fun old new same => by rw [same]) stored, List.map_map]
        rfl

theorem upsertProducts_refused {s : Shared} {r : Reply} {details : List OzonProduct}
    (refused : committed details r = false) : upsertProducts s r.dbOk details = s := by
  simp only [committed, Bool.or_eq_false_iff, Bool.and_eq_false_iff] at refused
  rcases refused.2 with dead | rejected
  · simp [upsertProducts, dead]
  · rw [upsertBatchOzon_accepts _ s.products] at rejected
    cases written : upsertBatchOzon s.products details with
    | error e => cases r.dbOk <;> simp [upsertProducts, written]
    | ok table =>
        rw [written] at rejected
        cases rejected

end Scand.Ozon.ProductRows
