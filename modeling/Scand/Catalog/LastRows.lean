/- path: Scand/Catalog/LastRows
   layer: results
   digest: What normalize_onec_product_catalog makes of its rows: the last row of each reference, where
   no other reference has its code. -/

import Scand.Catalog.Normalize
import Mathlib.Data.String.Basic

set_option autoImplicit false
set_option relaxedAutoImplicit false

namespace Scand.Catalog.LastRows

open Scand.Catalog.Normalize

structure ValidRow (row : List String) (code article name refKey : String) : Prop where
  fields : ∃ more, row = code :: article :: name :: refKey :: more
  filled : code ≠ ""
  uuid : isValidUuid refKey = true

def LastRow (rows : List (List String)) (code article name refKey : String) : Prop :=
  ∃ before row after, rows = before ++ row :: after ∧ ValidRow row code article name refKey ∧
    ∀ later ∈ after, ∀ c a n, ¬ ValidRow later c a n refKey

def Sole (rows : List (List String)) (code refKey : String) : Prop :=
  ∀ row ∈ rows, ∀ a n other, ValidRow row code a n other → other = refKey

/-- What is expected of the records that the rows of a catalogue are normalised to. -/
structure LastRecords (rows : List (List String)) (out : List OneCProductRecord) : Prop where
  ascending : out.Pairwise fun r s => r.code < s.code
  codes : (out.map OneCProductRecord.code).Nodup
  refs : (out.map OneCProductRecord.refKey).Nodup
  present : ∀ refKey, (∃ rec ∈ out, rec.refKey = refKey) ↔
    ∃ code article name, LastRow rows code article name refKey ∧ Sole rows code refKey
  carries : ∀ rec ∈ out, LastRow rows rec.code rec.article rec.name rec.refKey

section Records

variable {records : List OneCProductRecord} {r : OneCProductRecord}

theorem record_eq_some_iff {measuredAt : String} {row : List String} {rec : OneCProductRecord} :
    record measuredAt row = some rec ↔
      ValidRow row rec.code rec.article rec.name rec.refKey ∧ rec.measuredAt = measuredAt := by
  constructor
  · intro taken
    rcases row with _ | ⟨code, _ | ⟨article, _ | ⟨name, _ | ⟨refKey, more⟩⟩⟩⟩ <;>
      simp only [record, reduceCtorEq] at taken
    split at taken
    · cases taken
    · rename_i filled
      split at taken
      · rename_i valid
        cases taken
        exact ⟨⟨⟨more, rfl⟩, fun empty => filled (Or.inl empty), valid⟩, rfl⟩
      · cases taken
  · rintro ⟨⟨⟨more, rfl⟩, filled, uuid⟩, rfl⟩
    have named : rec.refKey ≠ "" := by
      intro empty
      rw [empty] at uuid
      exact absurd uuid (by decide)
    simp [record, filled, named, uuid]

theorem mem_byRef_iff : r ∈ byRef records ↔
    ∃ before after, records = before ++ r :: after ∧ ∀ later ∈ after, later.refKey ≠ r.refKey := by
  induction records with
  | nil => simp [byRef]
  | cons q rest ih =>
      unfold byRef
      constructor
      · intro mem
        have tail : r ∈ byRef rest → ∃ before after, q :: rest = before ++ r :: after ∧
            ∀ later ∈ after, later.refKey ≠ r.refKey := by
          intro kept
          obtain ⟨before, after, rfl, newest⟩ := ih.mp kept
          exact ⟨q :: before, after, rfl, newest⟩
        split at mem
        · exact tail mem
        · rename_i newest
          rcases List.mem_cons.mp mem with rfl | kept
          · refine ⟨[], rest, rfl, fun later mem same => newest ?_⟩
            exact List.any_eq_true.mpr ⟨later, mem, by simp [same]⟩
          · exact tail kept
      · rintro ⟨before, after, split, newest⟩
        rcases before with _ | ⟨p, before⟩
        · obtain ⟨rfl, rfl⟩ := List.cons.inj split
          have last : ¬ (rest.any fun later => decide (later.refKey = q.refKey)) = true := by
            intro again
            obtain ⟨later, mem, same⟩ := List.any_eq_true.mp again
            exact newest later mem (of_decide_eq_true same)
          rw [if_neg last]
          exact List.mem_cons_self
        · obtain ⟨rfl, rest_eq⟩ := List.cons.inj split
          have kept := ih.mpr ⟨before, after, rest_eq, newest⟩
          split
          · exact kept
          · exact List.mem_cons_of_mem q kept

theorem refsByCode_le_one_iff (mem : r ∈ records) :
    (refsByCode records r.code).length ≤ 1 ↔ ∀ s ∈ records, s.code = r.code → s.refKey = r.refKey := by
  constructor
  · intro few s mem_s same
    by_contra apart
    have two := refsByCode_two mem mem_s same.symm (Ne.symm apart)
    omega
  · intro sole
    have all : ∀ ref ∈ refsByCode records r.code, ref = r.refKey := by
      intro ref listed
      obtain ⟨s, kept, rfl⟩ := List.mem_map.mp (List.mem_dedup.mp listed)
      obtain ⟨mem_s, same⟩ := List.mem_filter.mp kept
      exact sole s mem_s (of_decide_eq_true same)
    have distinct : (refsByCode records r.code).Nodup := List.nodup_dedup _
    rcases many : refsByCode records r.code with _ | ⟨a, _ | ⟨b, more⟩⟩
    · exact Nat.zero_le 1
    · exact Nat.le_refl 1
    · rw [many] at all distinct
      have same : a = b := (all a (by simp)).trans (all b (by simp)).symm
      exact absurd (by simp [same]) (List.nodup_cons.mp distinct).1

end Records

section Normalized

variable {rows : List (List String)} {measuredAt : String} {rec : OneCProductRecord}

theorem mem_byRef_rows_iff : rec ∈ byRef (rows.filterMap (record measuredAt)) ↔
    LastRow rows rec.code rec.article rec.name rec.refKey ∧ rec.measuredAt = measuredAt := by
  rw [mem_byRef_iff]
  constructor
  · rintro ⟨before, after, taken, newest⟩
    obtain ⟨rowsBefore, rest, rfl, -, restTaken⟩ := List.filterMap_eq_append_iff.mp taken
    obtain ⟨skipped, row, rowsAfter, rfl, -, own, afterTaken⟩ := List.filterMap_eq_cons_iff.mp restTaken
    obtain ⟨valid, dated⟩ := record_eq_some_iff.mp own
    refine ⟨⟨rowsBefore ++ skipped, row, rowsAfter, by simp, valid, ?_⟩, dated⟩
    intro later mem c a n again
    let repeated : OneCProductRecord := ⟨c, a, n, rec.refKey, measuredAt⟩
    have read : record measuredAt later = some repeated := record_eq_some_iff.mpr ⟨again, rfl⟩
    have listed : repeated ∈ after := afterTaken ▸ List.mem_filterMap.mpr ⟨later, mem, read⟩
    exact newest repeated listed rfl
  · rintro ⟨⟨before, row, after, rfl, valid, newest⟩, dated⟩
    have own : record measuredAt row = some rec := record_eq_some_iff.mpr ⟨valid, dated⟩
    refine ⟨before.filterMap (record measuredAt), after.filterMap (record measuredAt), ?_, ?_⟩
    · rw [List.filterMap_append, List.filterMap_cons_some own]
    · intro later listed same
      obtain ⟨laterRow, mem, read⟩ := List.mem_filterMap.mp listed
      have again := (record_eq_some_iff.mp read).1
      rw [same] at again
      exact newest laterRow mem _ _ _ again

theorem sole_iff {code refKey : String} : Sole rows code refKey ↔
    ∀ s ∈ rows.filterMap (record measuredAt), s.code = code → s.refKey = refKey := by
  constructor
  · rintro sole s listed rfl
    obtain ⟨row, mem, read⟩ := List.mem_filterMap.mp listed
    exact sole row mem _ _ _ (record_eq_some_iff.mp read).1
  · intro sole row mem a n other valid
    let rec' : OneCProductRecord := ⟨code, a, n, other, measuredAt⟩
    have read : record measuredAt row = some rec' := record_eq_some_iff.mpr ⟨valid, rfl⟩
    exact sole rec' (List.mem_filterMap.mpr ⟨row, mem, read⟩) rfl

theorem mem_normalize_iff : rec ∈ normalizeOnecProductCatalog rows measuredAt ↔
    (LastRow rows rec.code rec.article rec.name rec.refKey ∧ rec.measuredAt = measuredAt) ∧
      Sole rows rec.code rec.refKey := by
  simp only [normalizeOnecProductCatalog, List.mem_mergeSort, List.mem_filter, decide_eq_true_eq]
  rw [← mem_byRef_rows_iff]
  refine and_congr_right fun kept => ?_
  rw [refsByCode_le_one_iff ((byRef_sublist _).subset kept), ← sole_iff]

theorem normalize_ascending (rows : List (List String)) (measuredAt : String) :
    (normalizeOnecProductCatalog rows measuredAt).Pairwise fun r s => r.code < s.code := by
  have sorted : (normalizeOnecProductCatalog rows measuredAt).Pairwise fun r s => codeLe r s = true := by
    apply List.pairwise_mergeSort
    · intro a b c below above
      exact decide_eq_true ((of_decide_eq_true below).trans (of_decide_eq_true above))
    · intro a b
      simpa [codeLe] using le_total a.code b.code
  have distinct := List.pairwise_map.mp (normalize_codes_nodup rows measuredAt)
  refine (sorted.and distinct).imp ?_
  rintro r s ⟨below, apart⟩
  exact lt_of_le_of_ne (of_decide_eq_true below) apart

/-- The normalised catalogue has the last row of each reference, unless another reference has its
code, in the order of the codes. -/
theorem normalize_last_rows (rows : List (List String)) (measuredAt : String) :
    LastRecords rows (normalizeOnecProductCatalog rows measuredAt) where
  ascending := normalize_ascending rows measuredAt
  codes := normalize_codes_nodup rows measuredAt
  refs := normalize_refs_nodup rows measuredAt
  present := by
    intro refKey
    constructor
    · rintro ⟨rec, mem, rfl⟩
      obtain ⟨⟨last, -⟩, sole⟩ := mem_normalize_iff.mp mem
      exact ⟨rec.code, rec.article, rec.name, last, sole⟩
    · rintro ⟨code, article, name, last, sole⟩
      exact ⟨⟨code, article, name, refKey, measuredAt⟩, mem_normalize_iff.mpr ⟨⟨last, rfl⟩, sole⟩, rfl⟩
  carries := fun rec mem => (mem_normalize_iff.mp mem).1.1

end Normalized

end Scand.Catalog.LastRows
