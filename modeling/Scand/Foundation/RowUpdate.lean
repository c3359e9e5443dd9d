/- path: Scand/Foundation/RowUpdate
   layer: library
   digest: The UPDATE of a table whose rows are kept in their order, and which rows it leaves. -/

import Mathlib.Data.List.Basic

set_option autoImplicit false
set_option relaxedAutoImplicit false

namespace Scand.Foundation.RowUpdate

variable {ρ : Type}

def updateWhere (hit : ρ → Bool) (change : ρ → ρ) (rows : List ρ) : List ρ :=
  rows.map fun row => if hit row then change row else row

variable {hit : ρ → Bool} {change : ρ → ρ} {rows : List ρ}

theorem updateWhere_get {k : Nat} {row : ρ} (at_k : rows[k]? = some row) :
    (updateWhere hit change rows)[k]? = some (if hit row then change row else row) := by
  simp [updateWhere, at_k]

theorem updateWhere_changed {k : Nat} {row : ρ} (at_k : rows[k]? = some row)
    (changed : (updateWhere hit change rows)[k]? ≠ some row) : hit row = true := by
  by_contra missed
  apply changed
  simp [updateWhere, at_k, missed]

theorem countP_updateWhere {p : ρ → Bool} (kept : ∀ row, p (change row) = p row) :
    (updateWhere hit change rows).countP p = rows.countP p := by
  unfold updateWhere
  rw [List.countP_map]
  congr 1
  funext row
  simp only [Function.comp_apply]
  split
  · exact kept row
  · rfl

theorem column_updateWhere {β : Type} {p : ρ → Bool} {column : ρ → β}
    (closes : ∀ row, p (change row) = false) :
    ((updateWhere hit change rows).filter p).map column =
      (rows.filter fun row => p row && !hit row).map column := by
  induction rows with
  | nil => rfl
  | cons row rows ih =>
      simp only [updateWhere, List.map_cons, List.filter_cons] at ih ⊢
      cases met : hit row with
      | true => simpa [closes row] using ih
      | false =>
          cases has : p row with
          | true => simpa [has] using ih
          | false => simpa [has] using ih

theorem column_updateWhere_sublist {β : Type} {p : ρ → Bool} {column : ρ → β}
    (gains : ∀ row, p (change row) = true → p row = true)
    (kept : ∀ row, column (change row) = column row) :
    (((updateWhere hit change rows).filter p).map column).Sublist
      ((rows.filter p).map column) := by
  induction rows with
  | nil => exact List.Sublist.refl _
  | cons row rows ih =>
      simp only [updateWhere, List.map_cons, List.filter_cons] at ih ⊢
      have head : p (if hit row then change row else row) = true → p row = true := by
        split
        · exact gains row
        · exact id
      have same : column (if hit row then change row else row) = column row := by
        split
        · exact kept row
        · rfl
      by_cases before : p row = true
      · by_cases after : p (if hit row then change row else row) = true
        · simpa only [before, after, if_true, List.map_cons, same] using ih.cons_cons (column row)
        · simpa only [before, after, if_true, if_false, Bool.false_eq_true, List.map_cons] using
            ih.cons (column row)
      · rw [if_neg fun after => before (head after), if_neg before]
        exact ih

end Scand.Foundation.RowUpdate
