/- path: Scand/Onec/ODataSuffix
   layer: code model lemmas
   digest: What is cut from the end of a path, and which paths are left as they are when they are cut
   once more. -/

import Scand.Onec.AcceptedUrls
import Mathlib.Data.List.DropRight

set_option autoImplicit false
set_option relaxedAutoImplicit false

namespace Scand.Onec.ODataSuffix

open Scand.Foundation.InternetAddress (Text)
open Scand.Onec.AcceptedUrls
open Scand.Onec.Strings
open Scand.Onec.UrlNormalizer

theorem toLower_append (s t : Text) : toLower (s ++ t) = toLower s ++ toLower t := List.map_append

theorem length_toLower (s : Text) : (toLower s).length = s.length := List.length_map _

theorem endsWithCi_iff {s suffix : Text} :
    endsWithCi s suffix = true ↔ toLower suffix <:+ toLower s := by
  rw [endsWithCi, Bool.and_eq_true, decide_eq_true_eq, decide_eq_true_eq]
  constructor
  · rintro ⟨-, same⟩
    refine ⟨toLower (s.take (s.length - suffix.length)), ?_⟩
    rw [← same, ← toLower_append, List.take_append_drop]
  · intro ends
    have short : suffix.length ≤ s.length := by
      have sizes := ends.length_le
      rwa [length_toLower, length_toLower] at sizes
    refine ⟨short, ?_⟩
    rw [List.suffix_iff_eq_drop.mp ends, length_toLower, length_toLower]
    exact List.map_drop

/-- A path that ends neither in a slash nor in a suffix. -/
structure Clean (path : Text) : Prop where
  slash : path.getLast? ≠ some '/'
  suffix : ∀ s ∈ suffixes, endsWithCi path s = false

def withoutSlashes (path : Text) : Text := path.rdropWhile (· = '/')

section Slashes

variable (path : Text)

theorem withoutSlashes_slash : (withoutSlashes path).getLast? ≠ some '/' := by
  intro last
  have filled : withoutSlashes path ≠ [] := by
    intro empty
    rw [empty] at last
    cases last
  have kept := List.rdropWhile_last_not (· = '/') path filled
  rw [List.getLast?_eq_some_getLast filled] at last
  exact kept (by simpa [withoutSlashes] using last)

theorem withoutSlashes_append : ∃ n, path = withoutSlashes path ++ List.replicate n '/' := by
  refine ⟨(path.rtakeWhile (· = '/')).length, ?_⟩
  have all : ∀ c ∈ path.rtakeWhile (· = '/'), c = '/' := by
    intro c mem
    simpa using List.mem_rtakeWhile_imp mem
  rw [← List.eq_replicate_of_mem all]
  exact List.rdropWhile_append_rtakeWhile.symm

variable {path}

theorem withoutSlashes_eq (slash : path.getLast? ≠ some '/') (n : Nat) :
    withoutSlashes (path ++ List.replicate n '/') = path := by
  induction n with
  | zero =>
      rw [List.replicate_zero, List.append_nil, withoutSlashes, List.rdropWhile_eq_self_iff]
      intro filled
      rw [List.getLast?_eq_some_getLast filled] at slash
      simpa using slash
  | succ n ih =>
      rw [List.replicate_succ', ← List.append_assoc, withoutSlashes,
        List.rdropWhile_concat_pos _ _ _ (by simp)]
      exact ih

theorem withoutSlashes_self (slash : path.getLast? ≠ some '/') : withoutSlashes path = path := by
  have whole := withoutSlashes_eq slash 0
  rwa [List.replicate_zero, List.append_nil] at whole

theorem withoutSlashes_prefix : withoutSlashes path <+: path := List.rdropWhile_prefix _ path

theorem withoutSlashes_concat : withoutSlashes (path ++ ['/']) = withoutSlashes path :=
  List.rdropWhile_concat_pos _ _ _ (by simp)

theorem slash_of_length (kept : path.length ≤ (withoutSlashes path).length) :
    path.getLast? ≠ some '/' := by
  have same : withoutSlashes path = path :=
    withoutSlashes_prefix.eq_of_length (Nat.le_antisymm withoutSlashes_prefix.length_le kept)
  rw [← same]
  exact withoutSlashes_slash path

end Slashes

theorem suffixes_plain {s : Text} (mem : s ∈ suffixes) :
    toLower s = s ∧ s ≠ [] ∧ s.getLast? = some 'a' := by
  have both : ∀ s ∈ suffixes, toLower s = s ∧ s ≠ [] ∧ s.getLast? = some 'a' := by decide
  exact both s mem

theorem suffixes_apart {s t : Text} (mem_s : s ∈ suffixes) (mem_t : t ∈ suffixes) (ends : s <:+ t) :
    s = t := by
  have both : ∀ s ∈ suffixes, ∀ t ∈ suffixes, s <:+ t → s = t := by decide
  exact both s mem_s t mem_t ends

theorem trimmedPath_eq (path : Text) :
    trimmedPath path = match suffixes.find? (endsWithCi (withoutSlashes path)) with
      | some suffix => (withoutSlashes path).take ((withoutSlashes path).length - suffix.length)
      | none => withoutSlashes path := rfl

section Trimmed

variable {path base suffix : Text}

theorem find?_of_clean (clean : Clean path) : suffixes.find? (endsWithCi path) = none := by
  rw [List.find?_eq_none]
  intro s mem
  rw [clean.suffix s mem]
  decide

theorem trimmedPath_of_clean (clean : Clean base) (n : Nat) :
    trimmedPath (base ++ List.replicate n '/') = base := by
  rw [trimmedPath_eq, withoutSlashes_eq clean.slash, find?_of_clean clean]

theorem find?_of_suffix (mem : toLower suffix ∈ suffixes) :
    suffixes.find? (endsWithCi (base ++ suffix)) = some (toLower suffix) := by
  have only : ∀ s ∈ suffixes, endsWithCi (base ++ suffix) s = true ↔ s = toLower suffix := by
    intro s mem_s
    obtain ⟨low, -⟩ := suffixes_plain mem_s
    rw [endsWithCi_iff, low, toLower_append]
    constructor
    · intro ends
      have ours : toLower suffix <:+ toLower base ++ toLower suffix := List.suffix_append _ _
      rcases List.suffix_or_suffix_of_suffix ends ours with inner | outer
      · exact suffixes_apart mem_s mem inner
      · exact (suffixes_apart mem mem_s outer).symm
    · rintro rfl
      exact List.suffix_append _ _
  cases found : suffixes.find? (endsWithCi (base ++ suffix)) with
  | none =>
      have missed := List.find?_eq_none.mp found _ mem
      exact absurd ((only _ mem).mpr rfl) missed
  | some s =>
      rw [(only s (List.mem_of_find?_eq_some found)).mp (List.find?_some found)]

theorem trimmedPath_of_suffix (mem : toLower suffix ∈ suffixes) (n : Nat) :
    trimmedPath (base ++ suffix ++ List.replicate n '/') = base := by
  have slash : (base ++ suffix).getLast? ≠ some '/' := by
    obtain ⟨-, filled, last⟩ := suffixes_plain mem
    have some_suffix : suffix ≠ [] := by
      rintro rfl
      exact filled rfl
    rw [List.getLast?_append_of_ne_nil _ some_suffix]
    intro ends
    rw [toLower, List.getLast?_map, ends] at last
    cases last
  rw [trimmedPath_eq, withoutSlashes_eq slash, find?_of_suffix mem]
  dsimp only
  rw [length_toLower, List.length_append, Nat.add_sub_cancel, List.take_left]

theorem trimmedPath_append (path : Text) : ∃ suffix n,
    path = trimmedPath path ++ suffix ++ List.replicate n '/' ∧
      (suffix = [] ∨ toLower suffix ∈ suffixes) := by
  obtain ⟨n, whole⟩ := withoutSlashes_append path
  cases found : suffixes.find? (endsWithCi (withoutSlashes path)) with
  | none =>
      refine ⟨[], n, ?_, Or.inl rfl⟩
      rw [trimmedPath_eq, found, List.append_nil]
      exact whole
  | some s =>
      have mem := List.mem_of_find?_eq_some found
      have ends := List.find?_some found
      rw [endsWithCi, Bool.and_eq_true, decide_eq_true_eq, decide_eq_true_eq] at ends
      refine ⟨(withoutSlashes path).drop ((withoutSlashes path).length - s.length), n, ?_, Or.inr ?_⟩
      · rw [trimmedPath_eq, found]
        dsimp only
        rw [List.take_append_drop]
        exact whole
      · rw [ends.2, (suffixes_plain mem).1]
        exact mem

theorem length_trimmedPath_le (path : Text) :
    (trimmedPath path).length ≤ (withoutSlashes path).length := by
  rw [trimmedPath_eq]
  split
  · rw [List.length_take]
    exact Nat.min_le_right _ _
  · exact Nat.le_refl _

theorem clean_of_length (slash : path.getLast? ≠ some '/')
    (kept : path.length ≤ (trimmedPath path).length) : Clean path := by
  refine ⟨slash, fun s mem => ?_⟩
  by_contra ends
  rw [Bool.not_eq_false] at ends
  obtain ⟨t, found⟩ : ∃ t, suffixes.find? (endsWithCi path) = some t :=
    Option.isSome_iff_exists.mp (List.find?_isSome.mpr ⟨s, mem, ends⟩)
  have found_ends : endsWithCi path t = true := List.find?_some found
  have short := (endsWithCi_iff.mp found_ends).length_le
  have filled := List.length_pos_of_ne_nil (suffixes_plain (List.mem_of_find?_eq_some found)).2.1
  rw [length_toLower, length_toLower] at short
  rw [trimmedPath_eq, withoutSlashes_self slash, found] at kept
  dsimp only at kept
  rw [List.length_take] at kept
  omega

theorem length_trimmedPath_lt_iff : (trimmedPath path).length < path.length ↔ ¬ Clean path := by
  constructor
  · intro shorter clean
    have whole := trimmedPath_of_clean clean 0
    rw [List.replicate_zero, List.append_nil] at whole
    rw [whole] at shorter
    exact Nat.lt_irrefl _ shorter
  · intro unclean
    by_contra kept
    have sizes := length_trimmedPath_le path
    have slash : path.getLast? ≠ some '/' := slash_of_length (by omega)
    exact unclean (clean_of_length slash (Nat.le_of_not_lt kept))

theorem trimmedPath_slash_iff : trimmedPath (base ++ ['/']) = base ↔ Clean base := by
  constructor
  · intro same
    have cut : trimmedPath base = base := by
      rw [trimmedPath_eq, withoutSlashes_concat] at same
      rw [trimmedPath_eq]
      exact same
    have sizes := length_trimmedPath_le base
    rw [cut] at sizes
    exact clean_of_length (slash_of_length sizes) (Nat.le_of_eq (congrArg List.length cut.symm))
  · exact fun clean => trimmedPath_of_clean clean 1

theorem length_trimmedPath_concat : (trimmedPath (base ++ ['/'])).length ≤ base.length := by
  have sizes := length_trimmedPath_le (base ++ ['/'])
  rw [withoutSlashes_concat] at sizes
  exact sizes.trans withoutSlashes_prefix.length_le

end Trimmed

def CutOnce (path : Text) : Prop :=
  ∃ base suffix n, path = base ++ suffix ++ List.replicate n '/' ∧
    (suffix = [] ∨ toLower suffix ∈ suffixes) ∧ Clean base

theorem cutOnce_iff {path : Text} : CutOnce path ↔ Clean (trimmedPath path) := by
  constructor
  · rintro ⟨base, suffix, n, rfl, rfl | mem, clean⟩
    · rw [List.append_nil, trimmedPath_of_clean clean]
      exact clean
    · rw [trimmedPath_of_suffix mem]
      exact clean
  · intro clean
    obtain ⟨suffix, n, whole, given⟩ := trimmedPath_append path
    exact ⟨trimmedPath path, suffix, n, whole, given, clean⟩

end Scand.Onec.ODataSuffix
