/- path: Scand/Catalog/Normalize
   layer: code model
   digest: normalize_onec_product_catalog: one record for each reference, without ambiguous codes. -/

import Scand.Foundation.JsonValue
import Mathlib.Data.List.Dedup
import Mathlib.Data.List.Perm.Basic

set_option autoImplicit false
set_option relaxedAutoImplicit false

namespace Scand.Catalog.Normalize

open Scand.Foundation.JsonValue

structure OneCProductRecord where
  code : String
  article : String
  name : String
  refKey : String
  measuredAt : String
  deriving DecidableEq

def getStr (o : Fields) (key : String) : String :=
  ((o.lookup key).bind Json.asString?).getD ""

def getBool (o : Fields) (key : String) : Bool :=
  ((o.lookup key).bind Json.asBool?).getD false

/-- A row of `read_all_rows`, unless the entry is deleted or a folder. -/
def rawRow (o : Fields) : Option (List String) :=
  if getBool o "DeletionMark" || getBool o "IsFolder" then none
  else some [getStr o "Code", getStr o "Артикул", getStr o "Description", getStr o "Ref_Key"]

def rawRows (items : List Json) : List (List String) := (Json.objects items).filterMap rawRow

def isHexDigit (c : Char) : Bool :=
  c.isDigit || ('a' ≤ c && c ≤ 'f') || ('A' ≤ c && c ≤ 'F')

def isValidUuid (s : String) : Bool :=
  s.length = 36 && s.toList.zipIdx.all fun (c, i) =>
    if i = 8 ∨ i = 13 ∨ i = 18 ∨ i = 23 then c = '-' else isHexDigit c

def record (measuredAt : String) : List String → Option OneCProductRecord
  | code :: article :: name :: refKey :: _ =>
      if code = "" ∨ refKey = "" then none
      else if isValidUuid refKey then
        some {
          code := code, article := article, name := name, refKey := refKey
          measuredAt := measuredAt }
      else none
  | _ => none

def byRef : List OneCProductRecord → List OneCProductRecord
  | [] => []
  | r :: rest => if rest.any fun later => later.refKey = r.refKey then byRef rest else r :: byRef rest

def refsByCode (records : List OneCProductRecord) (code : String) : List String :=
  ((records.filter fun r => r.code = code).map OneCProductRecord.refKey).dedup

def codeLe (a b : OneCProductRecord) : Bool := a.code ≤ b.code

/-- `normalize_onec_product_catalog`. The codes that are left are distinct, so their order determines
that of the records. -/
def normalizeOnecProductCatalog (rows : List (List String)) (measuredAt : String) :
    List OneCProductRecord :=
  let records := rows.filterMap (record measuredAt)
  ((byRef records).filter fun r => (refsByCode records r.code).length ≤ 1).mergeSort codeLe

/-- The codes that were dropped as repeated, after those in `seen`. -/
def countDropped (seen : List String) : List (List String) → Nat
  | [] => 0
  | (code :: _ :: _ :: _ :: _) :: rest =>
      if code ∈ seen then countDropped seen rest + 1 else countDropped (code :: seen) rest
  | _ :: rest => countDropped seen rest

section Records

variable {records : List OneCProductRecord} {r s : OneCProductRecord}

theorem byRef_sublist (records : List OneCProductRecord) : (byRef records).Sublist records := by
  induction records with
  | nil => exact List.Sublist.refl _
  | cons r rest ih =>
      unfold byRef
      split
      · exact ih.cons r
      · exact ih.cons_cons r

theorem byRef_nodup (records : List OneCProductRecord) :
    ((byRef records).map OneCProductRecord.refKey).Nodup := by
  induction records with
  | nil => exact List.nodup_nil
  | cons r rest ih =>
      unfold byRef
      split
      · exact ih
      · rename_i newest
        refine List.nodup_cons.mpr ⟨fun again => newest ?_, ih⟩
        obtain ⟨later, kept, same⟩ := List.mem_map.mp again
        exact List.any_eq_true.mpr ⟨later, (byRef_sublist rest).subset kept, by simp [same]⟩

theorem refsByCode_two (mem_r : r ∈ records) (mem_s : s ∈ records) (same : r.code = s.code)
    (apart : r.refKey ≠ s.refKey) : 1 < (refsByCode records r.code).length := by
  have has : ∀ q ∈ records, q.code = r.code → q.refKey ∈ refsByCode records r.code := by
    intro q mem code
    exact List.mem_dedup.mpr (List.mem_map_of_mem (List.mem_filter.mpr ⟨mem, by simp [code]⟩))
  have first := has r mem_r rfl
  have second := has s mem_s same.symm
  rcases few : refsByCode records r.code with _ | ⟨ref, _ | ⟨other, rest⟩⟩
  · rw [few] at first
    cases first
  · rw [few] at first second
    exact absurd ((List.mem_singleton.mp first).trans (List.mem_singleton.mp second).symm) apart
  · simp

end Records

section Normalized

variable {rows : List (List String)} {measuredAt : String}

theorem mem_normalize {r : OneCProductRecord}
    (mem : r ∈ normalizeOnecProductCatalog rows measuredAt) :
    r ∈ byRef (rows.filterMap (record measuredAt)) ∧
      (refsByCode (rows.filterMap (record measuredAt)) r.code).length ≤ 1 := by
  simp only [normalizeOnecProductCatalog, List.mem_mergeSort, List.mem_filter,
    decide_eq_true_eq] at mem
  exact mem

theorem normalize_refs_nodup (rows : List (List String)) (measuredAt : String) :
    ((normalizeOnecProductCatalog rows measuredAt).map OneCProductRecord.refKey).Nodup := by
  simp only [normalizeOnecProductCatalog]
  rw [((List.mergeSort_perm _ _).map OneCProductRecord.refKey).nodup_iff]
  exact (byRef_nodup _).sublist (List.filter_sublist.map OneCProductRecord.refKey)

theorem normalize_codes_nodup (rows : List (List String)) (measuredAt : String) :
    ((normalizeOnecProductCatalog rows measuredAt).map OneCProductRecord.code).Nodup := by
  have refs := normalize_refs_nodup rows measuredAt
  refine List.Nodup.map_on ?_ (List.Nodup.of_map _ refs)
  intro r mem_r s mem_s same
  obtain ⟨kept_r, few⟩ := mem_normalize mem_r
  obtain ⟨kept_s, -⟩ := mem_normalize mem_s
  by_contra apart
  have other : r.refKey ≠ s.refKey := fun equal =>
    apart (List.inj_on_of_nodup_map refs mem_r mem_s equal)
  have two := refsByCode_two ((byRef_sublist _).subset kept_r) ((byRef_sublist _).subset kept_s) same
    other
  omega

theorem normalize_valid {r : OneCProductRecord}
    (mem : r ∈ normalizeOnecProductCatalog rows measuredAt) :
    r.code ≠ "" ∧ isValidUuid r.refKey = true ∧ r.measuredAt = measuredAt := by
  obtain ⟨row, -, taken⟩ := List.mem_filterMap.mp ((byRef_sublist _).subset (mem_normalize mem).1)
  rcases row with _ | ⟨code, _ | ⟨article, _ | ⟨name, _ | ⟨refKey, more⟩⟩⟩⟩ <;>
    simp only [record, reduceCtorEq] at taken
  split at taken
  · cases taken
  · rename_i filled
    split at taken
    · rename_i valid
      cases taken
      exact ⟨fun empty => filled (Or.inl empty), valid, rfl⟩
    · cases taken

end Normalized

end Scand.Catalog.Normalize
