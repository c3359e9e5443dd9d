/- path: Scand/Foundation/Overlay
   layer: library
   digest: Batches of keyed rows laid over a table one after the other, and what remains to be done
   when some of them are laid over it again. -/

import Mathlib.Data.Set.Image

set_option autoImplicit false
set_option relaxedAutoImplicit false

namespace Scand.Foundation.Overlay

variable {ρ κ : Type} (key : ρ → κ)

/-- The rows of a batch, and of the table those under other keys. -/
def overlay (T B : Set ρ) : Set ρ := {r | r ∈ B ∨ (r ∈ T ∧ key r ∉ Set.image key B)}

def overlays (T : Set ρ) (Bs : List (Set ρ)) : Set ρ := Bs.foldl (overlay key) T

/-- The batches from `m` on lead to what all of them make of the table `T₀`. -/
def Leads (Bs : List (Set ρ)) (T₀ T : Set ρ) (m : Nat) : Prop :=
  overlays key T (Bs.drop m) = overlays key T₀ Bs

section Rules

variable {key} {T U B T₀ : Set ρ} {Bs : List (Set ρ)} {m n : Nat}

theorem mem_overlay {r : ρ} :
    r ∈ overlay key T B ↔ r ∈ B ∨ (r ∈ T ∧ key r ∉ Set.image key B) := Iff.rfl

theorem mem_overlays {r : ρ} :
    r ∈ overlays key T Bs ↔
      r ∈ overlays key ∅ Bs ∨ (r ∈ T ∧ ∀ B ∈ Bs, key r ∉ Set.image key B) := by
  induction Bs generalizing T with
  | nil => simp [overlays]
  | cons B Bs ih =>
      have split : r ∈ overlays key T (B :: Bs) ↔ r ∈ overlays key ∅ Bs ∨
          (r ∈ overlay key T B ∧ ∀ B ∈ Bs, key r ∉ Set.image key B) := ih
      have split_empty : r ∈ overlays key ∅ (B :: Bs) ↔ r ∈ overlays key ∅ Bs ∨
          (r ∈ overlay key ∅ B ∧ ∀ B ∈ Bs, key r ∉ Set.image key B) := ih
      rw [split, split_empty, List.forall_mem_cons]
      simp only [mem_overlay, Set.mem_empty_iff_false, false_and, or_false]
      tauto

theorem overlays_congr
    (agree : ∀ r, (∀ B ∈ Bs, key r ∉ Set.image key B) → (r ∈ T ↔ r ∈ U)) :
    overlays key T Bs = overlays key U Bs := by
  ext r
  rw [mem_overlays, mem_overlays (T := U)]
  exact or_congr_right (and_congr_left (agree r))

theorem overlays_absorb (mem : B ∈ Bs) :
    overlays key (overlay key T B) Bs = overlays key T Bs := by
  refine overlays_congr fun r other => ?_
  have outside := other B mem
  have not_new : r ∉ B := fun new => outside (Set.mem_image_of_mem key new)
  rw [mem_overlay, or_iff_right not_new, and_iff_left outside]

theorem Leads.start : Leads key Bs T₀ T₀ 0 := rfl

theorem Leads.again (leads : Leads key Bs T₀ T m) (le : m ≤ n) (lt : n < Bs.length) :
    Leads key Bs T₀ (overlay key T Bs[n]) m := by
  have to_come : Bs[n] ∈ Bs.drop m := by
    refine List.mem_drop_iff_getElem.mpr ⟨n - m, by omega, ?_⟩
    simp only [Nat.add_sub_cancel' le]
  exact (overlays_absorb to_come).trans leads

theorem Leads.next (leads : Leads key Bs T₀ T n) (lt : n < Bs.length) :
    Leads key Bs T₀ (overlay key T Bs[n]) (n + 1) := by
  unfold Leads at leads
  rw [List.drop_eq_getElem_cons lt] at leads
  exact leads

theorem Leads.finish (leads : Leads key Bs T₀ T Bs.length) : T = overlays key T₀ Bs := by
  unfold Leads at leads
  rwa [List.drop_length] at leads

end Rules

end Scand.Foundation.Overlay
