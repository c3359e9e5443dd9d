/- path: Scand/Catalog/PageLimit
   layer: results
   digest: read_all_rows returns the products of a catalogue, and refuses the catalogues above its
   limit, unless the catalogue is exactly as large as the limit. -/

import Scand.Catalog.LinkTables

set_option autoImplicit false
set_option relaxedAutoImplicit false

namespace Scand.Catalog.PageLimit

open Scand.Catalog.LinkTables
open Scand.Catalog.Normalize
open Scand.Catalog.Paging
open Scand.Catalog.Pull
open Scand.Foundation.InternetAddress (Text)
open Scand.Foundation.JsonValue

def isProduct (o : Fields) : Bool := !getBool o "DeletionMark" && !getBool o "IsFolder"

def productRow (o : Fields) : List String :=
  [getStr o "Code", getStr o "Артикул", getStr o "Description", getStr o "Ref_Key"]

/-- What is expected of `read_all_rows` on a catalogue that is served in pages. -/
structure Reads (env : Env) (cfg : Config) (entries : List Fields) : Prop where
  complete : entries.length ≤ 100000 →
    readAllRows env cfg (serving (entries.map .object)) = .ok ((entries.filter isProduct).map productRow)
  limited : readAllRows env cfg (serving (entries.map .object)) = .error limitError ↔
    100000 < entries.length

theorem rawRow_eq (o : Fields) : rawRow o = if isProduct o then some (productRow o) else none := by
  rw [rawRow, isProduct]
  cases getBool o "DeletionMark" <;> cases getBool o "IsFolder" <;> rfl

theorem rawRows_entries (entries : List Fields) :
    rawRows (entries.map .object) = (entries.filter isProduct).map productRow := by
  rw [rawRows, Json.objects_map_object]
  induction entries with
  | nil => rfl
  | cons o rest ih =>
      rw [List.filterMap_cons, rawRow_eq, List.filter_cons]
      by_cases product : isProduct o = true
      · simp only [product, if_true, List.map_cons, ih]
      · simp only [product, if_false, Bool.false_eq_true, ih]

theorem readAllRows_entries {env : Env} {cfg : Config} {base : Text}
    (address : publicationUrl env cfg = .ok base) (entries : List Fields) :
    readAllRows env cfg (serving (entries.map .object)) =
      if 100000 ≤ entries.length then .error limitError
      else .ok ((entries.filter isProduct).map productRow) := by
  have read := readAllRows_serving env cfg (entries.map .object) address
  rw [List.length_map, rawRows_entries] at read
  exact read

/-- The catalogue is read as expected exactly where its size is not that of the limit: there the pages
are used up, which the check after the loop takes for a catalogue that is too large. -/
theorem reads_iff (env : Env) (cfg : Config) (entries : List Fields) {base : Text}
    (address : publicationUrl env cfg = .ok base) :
    Reads env cfg entries ↔ entries.length ≠ 100000 := by
  have read := readAllRows_entries address entries
  constructor
  · intro reads full
    rw [if_pos full.ge] at read
    have large := reads.limited.mp read
    omega
  · intro apart
    by_cases large : 100000 ≤ entries.length
    · rw [if_pos large] at read
      refine ⟨fun small => ?_, fun _ => ?_, fun _ => read⟩
      · omega
      · omega
    · rw [if_neg large] at read
      refine ⟨fun _ => read, fun refused => ?_, fun above => ?_⟩
      · rw [read] at refused
        cases refused
      · omega

section Sample

def bolt : Fields :=
  [("Ref_Key", .string "0f8fad5b-d9cb-469f-a165-70867728950e"), ("Code", .string "00-1"),
    ("Артикул", .string "A-1"), ("Description", .string "Болт"), ("DeletionMark", .bool false),
    ("IsFolder", .bool false)]

/-- A catalogue of 100 000 products is refused as larger than 100 000. -/
theorem full_catalogue_refused :
    ¬ Reads sampleEnv sampleConfig (List.replicate 100000 bolt) := by
  intro reads
  have size : (List.replicate 100000 bolt).length = 100000 := List.length_replicate
  have read := readAllRows_entries sample_address (List.replicate 100000 bolt)
  rw [if_pos size.ge, reads.complete size.le] at read
  cases read

def fasteners : Fields :=
  [("Ref_Key", .string "6fa459ea-ee8a-4ca4-894e-db77e160355e"), ("Code", .string "00-2"),
    ("Артикул", .string ""), ("Description", .string "Крепёж"), ("DeletionMark", .bool false),
    ("IsFolder", .bool true)]

def nut : Fields :=
  [("Ref_Key", .string "7c9e6679-7425-40de-944b-e07fc1f90ae7"), ("Code", .string "00-3"),
    ("Артикул", .string "A-2"), ("Description", .string "Гайка"), ("DeletionMark", .bool false),
    ("IsFolder", .bool false)]

theorem reads_iff_two_pages :
    Reads sampleEnv sampleConfig (List.replicate 5000 bolt ++ [fasteners, nut]) ∧
      readAllRows sampleEnv sampleConfig
          (serving ((List.replicate 5000 bolt ++ [fasteners, nut]).map .object)) =
        .ok (List.replicate 5000 (productRow bolt) ++ [productRow nut]) := by
  have size : (List.replicate 5000 bolt ++ [fasteners, nut]).length = 5002 := by
    rw [List.length_append, List.length_replicate]
    rfl
  have reads := (reads_iff sampleEnv sampleConfig (List.replicate 5000 bolt ++ [fasteners, nut])
    sample_address).mpr (by omega)
  have products : isProduct bolt = true ∧ isProduct fasteners = false ∧ isProduct nut = true := by
    decide
  have second : ([fasteners, nut].filter isProduct).map productRow = [productRow nut] := by
    simp [products]
  refine ⟨reads, (reads.complete (by omega)).trans ?_⟩
  rw [List.filter_append, List.filter_replicate_of_pos products.1, List.map_append,
    List.map_replicate, second]

end Sample

end Scand.Catalog.PageLimit
