/- path: Scand/Foundation/Waiting
   layer: library
   digest: Machines seen through an image that some steps leave alone, runs that a weight bounds, and waits
   on a condition variable: the set of the sleeping processes, and the notifications owed to it. -/

import Scand.Foundation.Interleaving
import Mathlib.Data.Finset.Card

set_option autoImplicit false
set_option relaxedAutoImplicit false

namespace Scand.Foundation.Waiting

open Scand.Foundation.Interleaving

variable {σ π ρ : Type}

/-- Where every decision is one of another machine on the images, or leaves the image alone, the images
of a run are a run. -/
theorem reach_image {σ' π' ρ' : Type} {M : Machine σ π ρ} {N : Machine σ' π' ρ'}
    {image : Config σ π → Config σ' π'}
    (moves : ∀ c d l, M.next c l = some d →
      image d = image c ∨ ∃ l', N.next (image c) l' = some (image d))
    {c₀ c : Config σ π} (reach : Reach M anyLabel c₀ c) : Reach N anyLabel (image c₀) (image c) := by
  induction reach with
  | refl => exact .refl
  | step _ _ next ih =>
      rcases moves _ _ _ next with same | ⟨l', moved⟩
      · rw [same]
        exact ih
      · exact ih.step trivial moved

/-- A weight that every allowed decision lowers bounds the length of a run. -/
theorem length_le_of_run {M : Machine σ π ρ} {g : Config σ π → Label π ρ → Bool}
    {I : Config σ π → Prop} {weight : Config σ π → Nat}
    (lowers : ∀ c d l, I c → g c l = true → M.next c l = some d → I d ∧ weight d < weight c)
    {c d : Config σ π} {ls : List (Label π ρ)} (start : I c) (run : M.run g c ls = some d) :
    ls.length + weight d ≤ weight c := by
  induction ls generalizing c with
  | nil =>
      cases run
      rw [List.length_nil, Nat.zero_add]
  | cons l ls ih =>
      simp only [Machine.run] at run
      split at run
      · rename_i allowed
        obtain ⟨e, next, rest⟩ := Option.bind_eq_some_iff.mp run
        obtain ⟨kept, lower⟩ := lowers c e l start allowed next
        have after := ih kept rest
        rw [List.length_cons]
        omega
      · cases run

section Sets

variable {ps : List π} {f : π → Bool} {S : Finset Nat}

theorem countP_eq_card (f : π → Bool) (ps : List π) :
    ps.countP f = ((Finset.range ps.length).filter fun i => ps[i]?.any f = true).card := by
  induction ps using List.reverseRecOn with
  | nil => rfl
  | append_singleton ps q ih =>
      have old : (Finset.range ps.length).filter (fun i => (ps ++ [q])[i]?.any f = true) =
          (Finset.range ps.length).filter fun i => ps[i]?.any f = true := by
        refine Finset.filter_congr fun i mem => ?_
        rw [List.getElem?_append_left (Finset.mem_range.mp mem)]
      have last : (ps ++ [q])[ps.length]?.any f = f q := by
        rw [List.getElem?_append_right (Nat.le_refl _), Nat.sub_self]
        rfl
      rw [countP_snoc, ih, List.length_append, List.length_singleton, Finset.range_add_one,
        Finset.filter_insert, last, old]
      cases f q with
      | false => rfl
      | true =>
          have fresh : ps.length ∉ (Finset.range ps.length).filter fun i => ps[i]?.any f = true := by
            intro mem
            exact absurd (Finset.mem_range.mp (Finset.mem_filter.mp mem).1) (Nat.lt_irrefl _)
          rw [if_pos rfl, Finset.card_insert_of_notMem fresh]
          rfl

theorem card_le_countP (located : ∀ i ∈ S, ∃ p, ps[i]? = some p ∧ f p = true) :
    S.card ≤ ps.countP f := by
  rw [countP_eq_card]
  refine Finset.card_le_card fun i mem => ?_
  obtain ⟨p, at_i, kind⟩ := located i mem
  have bound := (List.getElem?_eq_some_iff.mp at_i).1
  rw [Finset.mem_filter, Finset.mem_range, at_i]
  exact ⟨bound, kind⟩

theorem countP_le_card (all : ∀ i p, ps[i]? = some p → f p = true → i ∈ S) :
    ps.countP f ≤ S.card := by
  rw [countP_eq_card]
  refine Finset.card_le_card fun i mem => ?_
  rw [Finset.mem_filter, Finset.mem_range] at mem
  obtain ⟨bound, kind⟩ := mem
  rw [List.getElem?_eq_getElem bound] at kind
  exact all i ps[i] (List.getElem?_eq_getElem bound) kind

end Sets

/-- The processes of these numbers are all at one place. -/
def Located (S : Finset Nat) (ps : List π) (place : π) : Prop := ∀ i ∈ S, ps[i]? = some place

section Located

variable {S T : Finset Nat} {ps : List π} {place p q : π} {i : Nat} {f : π → Bool}

theorem located_empty (ps : List π) (place : π) : Located ∅ ps place :=
  fun _ mem => absurd mem (Finset.notMem_empty _)

theorem Located.notMem (located : Located S ps place) (at_i : ps[i]? = some p) (other : p ≠ place) :
    i ∉ S := by
  intro mem
  exact other (Option.some.inj (at_i.symm.trans (located i mem)))

theorem Located.snoc (located : Located S ps place) (q : π) : Located S (ps ++ [q]) place :=
  fun i mem => getElem?_snoc_kept (located i mem)

theorem Located.set (located : Located S ps place) (fewer : T ⊆ S) (away : i ∉ T) (q : π) :
    Located T (ps.set i q) place := by
  intro j mem
  have apart : i ≠ j := by
    rintro rfl
    exact away mem
  rw [List.getElem?_set_ne apart]
  exact located j (fewer mem)

theorem Located.enter (located : Located S ps place) (at_i : ps[i]? = some p) :
    Located (insert i S) (ps.set i place) place := by
  intro j mem
  by_cases here : j = i
  · rw [here]
    exact getElem?_set_here at_i
  · rw [List.getElem?_set_ne (Ne.symm here)]
    exact located j ((Finset.mem_insert.mp mem).resolve_left here)

theorem Located.card_le (located : Located S ps place) (kind : f place = true) :
    S.card ≤ ps.countP f :=
  card_le_countP fun i mem => ⟨place, located i mem, kind⟩

theorem Located.card_lt (located : Located S ps place) (kind : f place = true)
    (at_i : ps[i]? = some place) (away : i ∉ S) : S.card < ps.countP f := by
  have both : (insert i S).card ≤ ps.countP f := by
    refine card_le_countP fun j mem => ?_
    rcases Finset.mem_insert.mp mem with rfl | old
    · exact ⟨place, at_i, kind⟩
    · exact ⟨place, located j old, kind⟩
  rwa [Finset.card_insert_of_notMem away] at both

end Located

/-- As long as a process sleeps, there are at least as many others on their way to an item, counting those
that still have to notify, as there are items. -/
def Served (items asleep ready : Nat) : Prop := 0 < items → 0 < asleep → items + asleep ≤ ready

section Served

variable {items asleep ready : Nat}

theorem Served.take (served : Served (items + 1) asleep (ready + 1)) : Served items asleep ready := by
  intro some_item some_sleeper
  have before := served (Nat.succ_pos _) some_sleeper
  omega

theorem Served.put (served : Served items asleep ready) (sleeping : asleep ≤ ready) :
    Served (items + 1) asleep (ready + 1) := by
  intro _ some_sleeper
  by_cases none_left : items = 0
  · omega
  · have before := served (Nat.pos_of_ne_zero none_left) some_sleeper
    omega

theorem Served.notify (served : Served items (asleep + 1) (ready + 1)) : Served items asleep ready := by
  intro some_item _
  have before := served some_item (Nat.succ_pos _)
  omega

theorem Served.weaken (served : Served items asleep ready) {asleep' ready' : Nat}
    (fewer : asleep' ≤ asleep) (more : ready ≤ ready') : Served items asleep' ready' := by
  intro some_item some_sleeper
  have before := served some_item (Nat.lt_of_lt_of_le some_sleeper fewer)
  omega

theorem served_zero (asleep ready : Nat) : Served 0 asleep ready :=
  fun some_item => absurd some_item (Nat.lt_irrefl 0)

theorem served_awake (items ready : Nat) : Served items 0 ready :=
  fun _ some_sleeper => absurd some_sleeper (Nat.lt_irrefl 0)

/-- No notification is lost: where all on their way sleep, no item is left for them. -/
theorem Served.none_left (served : Served items asleep ready) (some_sleeper : 0 < asleep)
    (all_sleep : ready ≤ asleep) : items = 0 := by
  by_contra some_item
  have owed := served (Nat.pos_of_ne_zero some_item) some_sleeper
  omega

end Served

end Scand.Foundation.Waiting
