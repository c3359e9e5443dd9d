/- path: Scand/Foundation/TextCuts
   layer: library
   digest: Cutting a list at the first occurrence of a pattern or at the last occurrence of one
   element, and reading joined pieces back. -/

import Mathlib.Data.List.TakeWhile

set_option autoImplicit false
set_option relaxedAutoImplicit false

namespace Scand.Foundation.TextCuts

variable {α : Type} [DecidableEq α]

/-- What stands before and after the first occurrence of a pattern. -/
def cutAt (pat : List α) : List α → Option (List α × List α)
  | [] => if pat = [] then some ([], []) else none
  | c :: rest =>
      if pat.isPrefixOf (c :: rest) then some ([], (c :: rest).drop pat.length)
      else (cutAt pat rest).map fun pieces => (c :: pieces.1, pieces.2)

def cutLast (x : α) : List α → Option (List α × List α)
  | [] => none
  | c :: rest =>
      match cutLast x rest with
      | some (before, after) => some (c :: before, after)
      | none => if c = x then some ([], rest) else none

section First

variable {p : α} {ps : List α}

theorem cutAt_here (pat rest : List α) : cutAt pat (pat ++ rest) = some ([], rest) := by
  cases whole : pat ++ rest with
  | nil =>
      obtain ⟨rfl, rfl⟩ := List.append_eq_nil_iff.mp whole
      rfl
  | cons c tail =>
      have starts : pat.isPrefixOf (c :: tail) = true := by
        rw [← whole, List.isPrefixOf_iff_prefix]
        exact List.prefix_append pat rest
      rw [cutAt, if_pos starts, ← whole, List.drop_left]

theorem cutAt_cons {c : α} {rest : List α} (other : ¬ (p :: ps) <+: c :: rest) :
    cutAt (p :: ps) (c :: rest) =
      (cutAt (p :: ps) rest).map fun pieces => (c :: pieces.1, pieces.2) := by
  rw [cutAt, if_neg]
  rw [List.isPrefixOf_iff_prefix]
  exact other

theorem cutAt_append {before : List α} (rest : List α) (free : p ∉ before) :
    cutAt (p :: ps) (before ++ rest) =
      (cutAt (p :: ps) rest).map fun pieces => (before ++ pieces.1, pieces.2) := by
  induction before with
  | nil => simp
  | cons c before ih =>
      rw [List.mem_cons, not_or] at free
      have other : ¬ (p :: ps) <+: c :: (before ++ rest) := by
        intro starts
        exact free.1 (List.cons_prefix_cons.mp starts).1
      rw [List.cons_append, cutAt_cons other, ih free.2, Option.map_map]
      rfl

theorem cutAt_eq_none {before : List α} (free : p ∉ before) : cutAt (p :: ps) before = none := by
  have passed : cutAt (p :: ps) (before ++ []) = _ := cutAt_append [] free
  rw [List.append_nil] at passed
  rw [passed]
  rfl

theorem eq_of_cutAt {pat s before after : List α} (cut : cutAt pat s = some (before, after)) :
    s = before ++ pat ++ after := by
  induction s generalizing before with
  | nil =>
      simp only [cutAt, Option.ite_none_right_eq_some, Option.some.injEq, Prod.mk.injEq] at cut
      obtain ⟨rfl, rfl, rfl⟩ := cut
      rfl
  | cons c rest ih =>
      rw [cutAt] at cut
      split at cut
      · rename_i starts
        rw [List.isPrefixOf_iff_prefix] at starts
        obtain ⟨tail, whole⟩ := starts
        rw [← whole, List.drop_left] at cut
        cases cut
        exact whole.symm
      · obtain ⟨⟨before', after'⟩, later, equal⟩ := Option.map_eq_some_iff.mp cut
        cases equal
        rw [ih later]
        rfl

theorem cutAt_single_eq_some_iff {x : α} {s before after : List α} :
    cutAt [x] s = some (before, after) ↔ s = before ++ x :: after ∧ x ∉ before := by
  have cut_of_eq : ∀ before after, x ∉ before →
      cutAt [x] (before ++ x :: after) = some (before, after) := by
    intro before after free
    have here := cutAt_here [x] after
    rw [List.singleton_append] at here
    rw [cutAt_append _ free, here]
    simp
  constructor
  · intro cut
    have whole := eq_of_cutAt cut
    rw [List.append_assoc, List.singleton_append] at whole
    have mem : x ∈ s := by simp [whole]
    obtain ⟨first, later, split_at, free⟩ := List.eq_append_cons_of_mem mem
    rw [split_at, cut_of_eq first later free] at cut
    cases cut
    exact ⟨split_at, free⟩
  · intro given
    obtain ⟨rfl, free⟩ := given
    exact cut_of_eq before after free

theorem cutAt_single_eq_none_iff {x : α} {s : List α} : cutAt [x] s = none ↔ x ∉ s := by
  constructor
  · intro uncut mem
    obtain ⟨before, after, split_at, free⟩ := List.eq_append_cons_of_mem mem
    rw [cutAt_single_eq_some_iff.mpr ⟨split_at, free⟩] at uncut
    cases uncut
  · exact cutAt_eq_none

end First

section Until

variable {x : α} {s rest : List α}

theorem takeWhile_ne_of_notMem (free : x ∉ s) : s.takeWhile (· ≠ x) = s := by
  rw [List.takeWhile_eq_self_iff]
  intro c mem
  have other : c ≠ x := fun same => free (same ▸ mem)
  simpa using other

theorem takeWhile_ne_append (free : x ∉ s) : (s ++ x :: rest).takeWhile (· ≠ x) = s := by
  rw [List.takeWhile_append_of_pos, List.takeWhile_cons_of_neg (by simp), List.append_nil]
  intro c mem
  have other : c ≠ x := fun same => free (same ▸ mem)
  simpa using other

theorem notMem_takeWhile_ne (x : α) (s : List α) : x ∉ s.takeWhile (· ≠ x) := by
  intro mem
  have other := List.mem_takeWhile_imp mem
  simp at other

theorem dropWhile_ne_cases (x : α) (s : List α) :
    s.dropWhile (· ≠ x) = [] ∨ ∃ rest, s.dropWhile (· ≠ x) = x :: rest := by
  induction s with
  | nil => exact Or.inl rfl
  | cons c s ih =>
      by_cases here : c = x
      · subst here
        exact Or.inr ⟨s, by simp⟩
      · rw [List.dropWhile_cons_of_pos (by simpa using here)]
        exact ih

end Until

section Last

variable {x : α} {s before after : List α}

theorem cutLast_eq_none_iff : cutLast x s = none ↔ x ∉ s := by
  induction s with
  | nil => simp [cutLast]
  | cons c rest ih =>
      rw [cutLast, List.mem_cons, not_or, ← ih]
      cases later : cutLast x rest with
      | some pieces => simp
      | none =>
          by_cases here : c = x
          · simp [here]
          · simp [here, Ne.symm here]

theorem cutLast_append (free : x ∉ after) :
    cutLast x (before ++ x :: after) = some (before, after) := by
  induction before with
  | nil => rw [List.nil_append, cutLast, cutLast_eq_none_iff.mpr free, if_pos rfl]
  | cons c before ih => rw [List.cons_append, cutLast, ih]

theorem cutLast_eq_some_iff :
    cutLast x s = some (before, after) ↔ s = before ++ x :: after ∧ x ∉ after := by
  constructor
  · intro cut
    have mem : x ∈ s := by
      by_cases mem : x ∈ s
      · exact mem
      · rw [cutLast_eq_none_iff.mpr mem] at cut
        cases cut
    obtain ⟨last, first, split_at, free⟩ := List.eq_append_cons_of_mem (List.mem_reverse.mpr mem)
    have whole : s = first.reverse ++ x :: last.reverse := by
      rw [← List.reverse_reverse s, split_at]
      simp
    have free' : x ∉ last.reverse := by simpa using free
    rw [whole, cutLast_append free'] at cut
    cases cut
    exact ⟨whole, free'⟩
  · intro given
    obtain ⟨rfl, free⟩ := given
    exact cutLast_append free

end Last

section Pieces

theorem mem_intercalate {α : Type} {x c : α} {pieces : List (List α)} (mem : c ∈ [x].intercalate pieces) :
    c = x ∨ ∃ piece ∈ pieces, c ∈ piece := by
  induction pieces with
  | nil => simp at mem
  | cons piece pieces ih =>
      cases pieces with
      | nil => exact Or.inr ⟨piece, by simpa using mem⟩
      | cons next pieces =>
          rw [List.intercalate_cons_cons, List.append_assoc, List.mem_append, List.mem_append,
            List.mem_singleton] at mem
          rcases mem with here | same | later
          · exact Or.inr ⟨piece, List.mem_cons_self, here⟩
          · exact Or.inl same
          · rcases ih later with same | ⟨other, listed, inside⟩
            · exact Or.inl same
            · exact Or.inr ⟨other, List.mem_cons_of_mem _ listed, inside⟩

theorem mem_splitOn {x c : α} {s : List α} (mem : c ∈ s) (other : c ≠ x) :
    ∃ piece ∈ s.splitOn x, c ∈ piece := by
  have whole : [x].intercalate (s.splitOn x) = s := List.intercalate_splitOn x
  rw [← whole] at mem
  rcases mem_intercalate mem with same | found
  · exact absurd same other
  · exact found

theorem cutAt_intercalate {p : α} {pieces : List (List α)} (rest : List α)
    (full : ∀ piece ∈ pieces, piece ≠ [] ∧ p ∉ piece) :
    cutAt [p, p] ([p].intercalate pieces ++ rest) =
      (cutAt [p, p] rest).map fun cut => ([p].intercalate pieces ++ cut.1, cut.2) := by
  induction pieces with
  | nil => simp
  | cons piece pieces ih =>
      obtain ⟨-, free⟩ := full piece List.mem_cons_self
      cases pieces with
      | nil =>
          rw [List.intercalate_singleton]
          exact cutAt_append rest free
      | cons next pieces =>
          have later := ih fun other mem => full other (List.mem_cons_of_mem _ mem)
          obtain ⟨filled, free_next⟩ := full next (List.mem_cons_of_mem _ List.mem_cons_self)
          have single : ¬ [p, p] <+: p :: ([p].intercalate (next :: pieces) ++ rest) := by
            intro doubled
            obtain ⟨c, tail, rfl⟩ := List.exists_cons_of_ne_nil filled
            have starts : ∃ more, [p].intercalate ((c :: tail) :: pieces) = c :: more := by
              cases pieces with
              | nil => exact ⟨tail, by simp⟩
              | cons other pieces => exact ⟨_, by rw [List.intercalate_cons_cons]; rfl⟩
            obtain ⟨more, starts⟩ := starts
            rw [starts] at doubled
            have same := (List.cons_prefix_cons.mp (List.cons_prefix_cons.mp doubled).2).1
            exact free_next (same ▸ List.mem_cons_self)
          rw [List.intercalate_cons_cons, List.append_assoc, List.append_assoc,
            cutAt_append _ free, List.singleton_append, cutAt_cons single, later, Option.map_map,
            Option.map_map]
          simp [Function.comp_def]

end Pieces

end Scand.Foundation.TextCuts
