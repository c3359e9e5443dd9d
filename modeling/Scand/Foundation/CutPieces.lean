/- path: Scand/Foundation/CutPieces
   layer: library
   digest: Rows selected piece by piece, each piece cut at a limit: when the pieces put together are
   the whole selection. -/

import Mathlib.Data.List.Forall2
import Mathlib.Data.List.Perm.Basic

set_option autoImplicit false
set_option relaxedAutoImplicit false

namespace Scand.Foundation.CutPieces

section Selection

variable {α κ : Type} [DecidableEq κ] {key : α → Option κ}

def selects (key : α → Option κ) (keys : List κ) (a : α) : Bool :=
  match key a with
  | some k => decide (k ∈ keys)
  | none => false

theorem selects_append (left right : List κ) (a : α) :
    selects key (left ++ right) a = (selects key left a || selects key right a) := by
  unfold selects
  cases key a with
  | none => rfl
  | some k => simp

theorem filter_or_perm {p q : α → Bool} {rows : List α}
    (disjoint : ∀ a ∈ rows, p a = true → q a = false) :
    (rows.filter fun a => p a || q a).Perm (rows.filter p ++ rows.filter q) := by
  induction rows with
  | nil => exact .refl _
  | cons a rows ih =>
      have tail := ih fun b mem => disjoint b (List.mem_cons_of_mem _ mem)
      cases hp : p a with
      | true =>
          have hq := disjoint a List.mem_cons_self hp
          simpa [List.filter_cons, hp, hq] using tail
      | false =>
          cases hq : q a with
          | true =>
              simp only [List.filter_cons, hp, hq, Bool.false_or, if_true, Bool.false_eq_true,
                if_false]
              exact (tail.cons a).trans List.perm_middle.symm
          | false => simpa [List.filter_cons, hp, hq] using tail

theorem filter_selects_nil (key : α → Option κ) (rows : List α) : rows.filter (selects key []) = [] := by
  rw [List.filter_eq_nil_iff]
  intro a _
  unfold selects
  cases key a <;> simp

theorem filter_pieces_perm (key : α → Option κ) (pieces : List (List κ))
    (distinct : pieces.flatten.Nodup) (rows : List α) :
    (rows.filter (selects key pieces.flatten)).Perm
      (pieces.flatMap fun piece => rows.filter (selects key piece)) := by
  induction pieces with
  | nil => simpa using filter_selects_nil key rows
  | cons piece pieces ih =>
      rw [List.flatten_cons, List.nodup_append] at distinct
      obtain ⟨-, tail_distinct, apart⟩ := distinct
      have disjoint : ∀ a ∈ rows, selects key piece a = true →
          selects key pieces.flatten a = false := by
        intro a _ here
        unfold selects at here ⊢
        cases found : key a with
        | none => rfl
        | some k =>
            rw [found] at here
            simp only [decide_eq_true_eq] at here
            simp only [decide_eq_false_iff_not]
            exact fun there => apart k here k there rfl
      have split := filter_or_perm disjoint
      simp only [← selects_append] at split
      rw [List.flatten_cons, List.flatMap_cons]
      exact split.trans ((ih tail_distinct).append_left _)

end Selection

section Cutting

variable {α β : Type}

theorem flatten_pieces {pieces : β → List (List α)} {whole : β → List α} {bs : List β}
    (made : ∀ b ∈ bs, (pieces b).flatten = whole b) :
    (bs.flatMap pieces).flatten = (bs.map whole).flatten := by
  induction bs with
  | nil => rfl
  | cons b bs ih =>
      have rest := ih fun c mem => made c (List.mem_cons_of_mem _ mem)
      rw [List.flatMap_cons, List.flatten_append, List.map_cons, List.flatten_cons,
        made b List.mem_cons_self, rest]

/-- What a source that delivers at most `limit` rows, in an order of its own, makes of a list. -/
def Cut (limit : Nat) (whole part : List α) : Prop :=
  ∃ listed : List α, listed.Perm whole ∧ part = listed.take limit

theorem Cut.length {limit : Nat} {whole part : List α} (cut : Cut limit whole part) :
    part.length = min limit whole.length := by
  obtain ⟨listed, perm, rfl⟩ := cut
  rw [List.length_take, perm.length_eq]

theorem Cut.perm {limit : Nat} {whole part : List α} (cut : Cut limit whole part)
    (fits : whole.length ≤ limit) : part.Perm whole := by
  obtain ⟨listed, perm, rfl⟩ := cut
  rwa [List.take_of_length_le (perm.length_eq ▸ fits)]

section Pieces

variable {limit : Nat} {whole : β → List α} {pieces : List β} {parts : List (List α)}

private theorem parts_length_le
    (cuts : List.Forall₂ (fun piece part => Cut limit (whole piece) part) pieces parts) :
    parts.flatten.length ≤ (pieces.flatMap whole).length := by
  induction cuts with
  | nil => exact Nat.le_refl _
  | cons cut _ ih =>
      have here := cut.length
      simp only [List.flatten_cons, List.flatMap_cons, List.length_append]
      omega

private theorem fits_of_length
    (cuts : List.Forall₂ (fun piece part => Cut limit (whole piece) part) pieces parts)
    (lengths : (pieces.flatMap whole).length ≤ parts.flatten.length) :
    ∀ piece ∈ pieces, (whole piece).length ≤ limit := by
  induction cuts with
  | nil => simp
  | cons cut rest ih =>
      have here := cut.length
      have there := parts_length_le rest
      simp only [List.flatten_cons, List.flatMap_cons, List.length_append] at lengths
      intro piece mem
      rcases List.mem_cons.mp mem with rfl | mem
      · omega
      · exact ih (by omega) piece mem

theorem cuts_perm_iff
    (cuts : List.Forall₂ (fun piece part => Cut limit (whole piece) part) pieces parts) :
    parts.flatten.Perm (pieces.flatMap whole) ↔
      ∀ piece ∈ pieces, (whole piece).length ≤ limit := by
  constructor
  · exact fun perm => fits_of_length cuts (Nat.le_of_eq perm.length_eq.symm)
  · intro fits
    induction cuts with
    | nil => exact .refl _
    | cons cut _ ih =>
        rw [List.flatten_cons, List.flatMap_cons]
        exact (cut.perm (fits _ List.mem_cons_self)).append
          (ih fun piece mem => fits piece (List.mem_cons_of_mem _ mem))

end Pieces

end Cutting

end Scand.Foundation.CutPieces
