/- path: Scand/Foundation/Accumulate
   layer: library
   digest: Accumulating rows under keys, as a map of accumulators in the order of first appearance. -/

import Mathlib.Data.List.Nodup

set_option autoImplicit false
set_option relaxedAutoImplicit false

namespace Scand.Foundation.Accumulate

variable {κ ρ ε γ : Type} [DecidableEq κ]

/-- `acc[key]`, created as `fresh` when it is absent, then changed by `add`. -/
def addUnder (key : κ) (fresh : ε) (add : ε → ε) : List (κ × ε) → List (κ × ε)
  | [] => [(key, add fresh)]
  | (k, e) :: rest =>
      if k = key then (k, add e) :: rest else (k, e) :: addUnder key fresh add rest

def accumulate (key : ρ → κ) (fresh : ρ → ε) (add : ρ → ε → ε) (rows : List ρ)
    (acc : List (κ × ε)) : List (κ × ε) :=
  rows.foldl (fun acc row => addUnder (key row) (fresh row) (add row) acc) acc

/-- The rows that create an accumulator: the first one under each key that is not yet known. -/
def firsts (key : ρ → κ) : List ρ → List κ → List ρ
  | [], _ => []
  | row :: rows, known =>
      if key row ∈ known then firsts key rows known
      else row :: firsts key rows (known ++ [key row])

theorem addUnder_map {key : κ} {fresh : ε} {add : ε → ε} {view : κ × ε → γ}
    (kept : ∀ k e, view (k, add e) = view (k, e)) (acc : List (κ × ε)) :
    (addUnder key fresh add acc).map view =
      acc.map view ++ if key ∈ acc.map Prod.fst then [] else [view (key, fresh)] := by
  induction acc with
  | nil => simp [addUnder, kept]
  | cons entry acc ih =>
      obtain ⟨k, e⟩ := entry
      simp only [addUnder]
      by_cases here : k = key
      · simp [here, kept]
      · have apart : key ≠ k := fun same => here same.symm
        simp only [if_neg here, List.map_cons, ih, List.mem_cons, apart, false_or,
          List.cons_append]

theorem accumulate_map {key : ρ → κ} {fresh : ρ → ε} {add : ρ → ε → ε} {view : κ × ε → γ}
    (kept : ∀ row k e, view (k, add row e) = view (k, e)) (rows : List ρ) (acc : List (κ × ε)) :
    (accumulate key fresh add rows acc).map view =
      acc.map view ++ (firsts key rows (acc.map Prod.fst)).map fun row =>
        view (key row, fresh row) := by
  induction rows generalizing acc with
  | nil => simp [accumulate, firsts]
  | cons row rows ih =>
      have keys : (addUnder (key row) (fresh row) (add row) acc).map Prod.fst =
          acc.map Prod.fst ++ if key row ∈ acc.map Prod.fst then [] else [key row] :=
        addUnder_map (fun k e => show (k, add row e).1 = (k, e).1 from rfl) acc
      have rest := ih (addUnder (key row) (fresh row) (add row) acc)
      simp only [accumulate, List.foldl_cons] at rest ⊢
      rw [rest, addUnder_map (kept row), keys, firsts]
      split
      · simp
      · simp

theorem nodup_keys_addUnder {key : κ} {fresh : ε} {add : ε → ε} {acc : List (κ × ε)}
    (distinct : (acc.map Prod.fst).Nodup) :
    ((addUnder key fresh add acc).map Prod.fst).Nodup := by
  rw [addUnder_map (fun k e => show (k, add e).1 = (k, e).1 from rfl)]
  split
  · simpa using distinct
  · rename_i absent
    apply List.nodup_append.mpr
    refine ⟨distinct, List.nodup_singleton _, ?_⟩
    intro a mem b here same
    obtain rfl : b = key := List.mem_singleton.mp here
    rw [same] at mem
    exact absent mem

theorem nodup_keys_accumulate {key : ρ → κ} {fresh : ρ → ε} {add : ρ → ε → ε} (rows : List ρ)
    {acc : List (κ × ε)} (distinct : (acc.map Prod.fst).Nodup) :
    ((accumulate key fresh add rows acc).map Prod.fst).Nodup := by
  induction rows generalizing acc with
  | nil => exact distinct
  | cons row rows ih =>
      rw [accumulate, List.foldl_cons]
      exact ih (nodup_keys_addUnder distinct)

theorem mem_iff_lookup {acc : List (κ × ε)} (distinct : (acc.map Prod.fst).Nodup) {k : κ} {e : ε} :
    (k, e) ∈ acc ↔ acc.lookup k = some e := by
  induction acc with
  | nil => simp
  | cons entry acc ih =>
      obtain ⟨k', e'⟩ := entry
      simp only [List.map_cons, List.nodup_cons] at distinct
      rw [List.lookup_cons, List.mem_cons, ih distinct.2]
      by_cases same : k = k'
      · subst same
        have absent : acc.lookup k = none := by
          rw [List.lookup_eq_none_iff]
          intro other mem
          have apart : k ≠ other.1 := fun equal =>
            distinct.1 (List.mem_map.mpr ⟨other, mem, equal.symm⟩)
          simpa using apart
        simp [absent, eq_comm]
      · have apart : (k == k') = false := by simpa using same
        simp [same, apart]

theorem lookup_addUnder (key k : κ) (fresh : ε) (add : ε → ε) (acc : List (κ × ε)) :
    (addUnder key fresh add acc).lookup k =
      if k = key then some (add ((acc.lookup k).getD fresh)) else acc.lookup k := by
  induction acc with
  | nil =>
      by_cases same : k = key
      · simp [addUnder, same]
      · have apart : (k == key) = false := by simpa using same
        simp [addUnder, same, List.lookup_cons, apart]
  | cons entry acc ih =>
      obtain ⟨k', e⟩ := entry
      rw [addUnder]
      by_cases here : k' = key
      · subst here
        by_cases same : k = k'
        · simp [same]
        · have apart : (k == k') = false := by simpa using same
          simp [same, List.lookup_cons, apart]
      · by_cases found : k = k'
        · subst found
          simp [here]
        · have apart : (k == k') = false := by simpa using found
          simp only [if_neg here, List.lookup_cons, apart, ih]

theorem lookup_accumulate (key : ρ → κ) (fresh : ρ → ε) (add : ρ → ε → ε) (rows : List ρ)
    (acc : List (κ × ε)) (k : κ) :
    (accumulate key fresh add rows acc).lookup k =
      (rows.filter fun row => key row = k).foldl
        (fun found row => some (add row (found.getD (fresh row)))) (acc.lookup k) := by
  induction rows generalizing acc with
  | nil => rfl
  | cons row rows ih =>
      have rest := ih (addUnder (key row) (fresh row) (add row) acc)
      rw [accumulate] at rest ⊢
      rw [List.foldl_cons, rest, lookup_addUnder, List.filter_cons]
      by_cases here : key row = k
      · simp [here]
      · have apart : k ≠ key row := fun same => here same.symm
        simp [here, apart]

/-- Accumulators do not depend on the order of the rows, as long as a new one depends on the key
alone and additions commute. -/
theorem accumulate_perm {key : ρ → κ} {fresh : ρ → ε} {add : ρ → ε → ε} {rows rows' : List ρ}
    (perm : rows.Perm rows')
    (fresh_eq : ∀ a ∈ rows, ∀ b ∈ rows, key a = key b → fresh a = fresh b)
    (comm : ∀ a b e, add a (add b e) = add b (add a e)) :
    (accumulate key fresh add rows []).Perm (accumulate key fresh add rows' []) := by
  have distinct : ∀ rows, ((accumulate key fresh add rows []).map Prod.fst).Nodup :=
    fun rows => nodup_keys_accumulate rows List.nodup_nil
  apply (List.perm_ext_iff_of_nodup ((distinct rows).of_map Prod.fst)
    ((distinct rows').of_map Prod.fst)).mpr
  intro entry
  obtain ⟨k, e⟩ := entry
  rw [mem_iff_lookup (distinct rows), mem_iff_lookup (distinct rows'), lookup_accumulate,
    lookup_accumulate]
  have same : (rows.filter fun row => key row = k).foldl
        (fun found row => some (add row (found.getD (fresh row)))) (([] : List (κ × ε)).lookup k) =
      (rows'.filter fun row => key row = k).foldl
        (fun found row => some (add row (found.getD (fresh row)))) (([] : List (κ × ε)).lookup k) := by
    apply (perm.filter _).foldl_eq'
    intro a mem_a b mem_b found
    obtain ⟨in_a, key_a⟩ := List.mem_filter.mp mem_a
    obtain ⟨in_b, key_b⟩ := List.mem_filter.mp mem_b
    have equal : fresh a = fresh b := fresh_eq a in_a b in_b
      ((of_decide_eq_true key_a).trans (of_decide_eq_true key_b).symm)
    cases found with
    | none => simp [equal, comm]
    | some e => simp [comm]
  rw [same]

theorem mem_of_mem_firsts {key : ρ → κ} {rows : List ρ} {known : List κ} {row : ρ}
    (mem : row ∈ firsts key rows known) : row ∈ rows := by
  induction rows generalizing known with
  | nil => cases mem
  | cons first rows ih =>
      simp only [firsts] at mem
      split at mem
      · exact List.mem_cons_of_mem _ (ih mem)
      · rcases List.mem_cons.mp mem with rfl | later
        · exact List.mem_cons_self
        · exact List.mem_cons_of_mem _ (ih later)

theorem exists_mem_firsts (key : ρ → κ) {rows : List ρ} (nonempty : rows ≠ []) :
    ∃ row, row ∈ firsts key rows [] := by
  cases rows with
  | nil => exact absurd rfl nonempty
  | cons row rows => exact ⟨row, by simp [firsts]⟩

end Scand.Foundation.Accumulate
