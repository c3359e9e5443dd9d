/- path: Scand/Catalog/Paging
   layer: results
   digest: What the page loop of both pulls reads of a catalogue that 1C serves in pages. -/

import Scand.Catalog.Pull

set_option autoImplicit false
set_option relaxedAutoImplicit false

namespace Scand.Catalog.Paging

open Scand.Catalog.Normalize
open Scand.Catalog.Pull
open Scand.Foundation.InternetAddress (Text)
open Scand.Foundation.JsonValue

/-- A 1C that answers every request with a page of a fixed list of entries. -/
def serving (entries : List Json) : Server := fun request => {
  statusCode := 200
  body := .ok (.object [("value", .array ((entries.drop request.skip).take request.top))]) }

@[simp] theorem readPage_serving (entries : List Json) (request : PageRequest) :
    readPage (serving entries request) = .ok ((entries.drop request.skip).take request.top) := rfl

theorem rawRows_append (a b : List Json) : rawRows (a ++ b) = rawRows a ++ rawRows b := by
  simp [rawRows, Json.objects]

section Loop

variable {entries : List Json} {pageSize maxRows : Nat}

structure ReadsTo (entries : List Json) (maxRows : Nat) (expected : List Json) (r : PagesRead) :
    Prop where
  rows : r.rows = rawRows expected
  limit : maxRows ≤ r.ending.offset ↔ maxRows ≤ entries.length
  done : ∀ offset e, r.ending ≠ .failed offset e

theorem readPages_serving (positive : 0 < pageSize) (n offset : Nat)
    (whole : offset + n * pageSize = maxRows) (within : offset ≤ entries.length) :
    ReadsTo entries maxRows ((entries.drop offset).take (n * pageSize))
      (readPages (fun o => .ok ((entries.drop o).take pageSize)) pageSize maxRows offset) := by
  induction n generalizing offset with
  | zero =>
      obtain rfl : offset = maxRows := by simpa using whole
      rw [readPages, if_neg (Nat.lt_irrefl _)]
      exact ⟨by simp [PagesRead.rows, rawRows, Json.objects], by simp [Ending.offset, within],
        by simp⟩
  | succ n ih =>
      have more : offset < maxRows := by
        rw [Nat.succ_mul] at whole
        omega
      rw [readPages, if_pos more]
      simp only
      by_cases nothing : (entries.drop offset).take pageSize = []
      · have ended : entries.drop offset = [] := by
          rcases List.take_eq_nil_iff.mp nothing with zero | ended
          · omega
          · exact ended
        have bound := List.drop_eq_nil_iff.mp ended
        rw [if_pos nothing, ended, List.take_nil]
        refine ⟨by simp [PagesRead.rows, rawRows, Json.objects], ?_, by simp⟩
        simp only [Ending.offset]
        omega
      · rw [if_neg nothing]
        have length : ((entries.drop offset).take pageSize).length =
            min pageSize (entries.length - offset) := by simp
        by_cases short : ((entries.drop offset).take pageSize).length < pageSize
        · rw [if_pos short]
          have bound : entries.length - offset < pageSize := by omega
          have all : ∀ k, pageSize ≤ k → (entries.drop offset).take k = entries.drop offset := by
            intro k large
            refine List.take_of_length_le ?_
            rw [List.length_drop]
            omega
          have larger : pageSize ≤ (n + 1) * pageSize := by
            rw [Nat.succ_mul]
            omega
          rw [all _ larger]
          refine ⟨by simp [PagesRead.rows, all _ (Nat.le_refl _)], ?_, by simp⟩
          simp only [Ending.offset]
          rw [Nat.succ_mul] at whole
          omega
        · rw [if_neg short]
          have full : ((entries.drop offset).take pageSize).length = pageSize := by omega
          have rest := ih (offset + pageSize) (by rw [Nat.succ_mul] at whole; omega) (by omega)
          rw [full]
          refine ⟨?_, rest.limit, rest.done⟩
          have split : (entries.drop offset).take ((n + 1) * pageSize) =
              (entries.drop offset).take pageSize ++
                (entries.drop (offset + pageSize)).take (n * pageSize) := by
            rw [Nat.succ_mul, Nat.add_comm, List.take_add, List.drop_drop]
          rw [split, rawRows_append, ← rest.rows]
          simp [PagesRead.rows]

theorem pagesOf_serving (cfg : Config) (base : Text) (positive : 0 < pageSize) (n : Nat)
    (whole : n * pageSize = maxRows) :
    ReadsTo entries maxRows (entries.take maxRows)
      (pagesOf cfg (serving entries) base pageSize maxRows) := by
  have start : 0 + n * pageSize = maxRows := by omega
  have read := readPages_serving positive n 0 start (Nat.zero_le entries.length)
  rw [List.drop_zero, whole] at read
  exact read

end Loop

theorem readAllRows_serving (env : Env) (cfg : Config) (entries : List Json) {base : Text}
    (address : publicationUrl env cfg = .ok base) :
    readAllRows env cfg (serving entries) =
      if kMaxRows ≤ entries.length then .error limitError else .ok (rawRows entries) := by
  have read : ReadsTo entries kMaxRows (entries.take kMaxRows)
      (pagesOf cfg (serving entries) base kPageSize kMaxRows) :=
    pagesOf_serving cfg base (by decide) 20 (by decide)
  have limit := read.limit
  simp only [readAllRows, address]
  split
  · rename_i offset e failed
    exact absurd failed (read.done offset e)
  · by_cases large : kMaxRows ≤ entries.length
    · rw [if_pos (limit.mpr large), if_pos large]
    · rw [if_neg fun reached => large (limit.mp reached), if_neg large, read.rows,
        List.take_of_length_le (Nat.le_of_not_le large)]

end Scand.Catalog.Paging
