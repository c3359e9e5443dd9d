/- path: Scand/Ozon/Pages
   layer: abstract model
   digest: What an Ozon sync is for: a catalogue in fixed pages, the points between them, and the rows
   that writing its pages leaves. -/

import Scand.Foundation.Overlay
import Scand.Ozon.AutoResume

set_option autoImplicit false
set_option relaxedAutoImplicit false

namespace Scand.Ozon.Pages

open Scand.Foundation.JsonValue (HttpReply)
open Scand.Foundation.Overlay
open Scand.Ozon.AutoResume (rowOf)
open Scand.Ozon.Client
open Scand.Ozon.ProductRows
open Scand.Ozon.Service

structure Answers where
  listing : String → HttpReply
  info : List String → HttpReply
  prices : List String → HttpReply

namespace Answers

variable (A : Answers)

def page (pageSize : Int) (cursor : String) : OzonPage := fetchPageCursor pageSize (A.listing cursor)

def named (page : OzonPage) : List OzonProduct :=
  fetchInfoBatch (page.items.map OzonProduct.id) (A.info (page.items.map OzonProduct.id))

def priced (named : List OzonProduct) : List OzonProduct :=
  withPrices named (fetchPricesStocksBatch (skusOf named) (A.prices (skusOf named)))

def details (page : OzonPage) : List OzonProduct := A.priced (A.named page)

end Answers

/-- A catalogue in pages of a fixed size: all of them but the last are full, the cursor after the last
one yields an empty page, and the columns of the database can hold every product. -/
structure PagedCatalogue (pageSize : Int) extends Answers where
  pages : Nat
  cursor : Nat → String
  first : cursor 0 = ""
  answers : ∀ k ≤ pages, (toAnswers.page pageSize (cursor k)).networkError = false
  follows : ∀ k < pages, (toAnswers.page pageSize (cursor k)).lastId = cursor (k + 1)
  listed : ∀ k < pages, (toAnswers.page pageSize (cursor k)).items ≠ []
  full : ∀ k, k + 1 < pages → (toAnswers.page pageSize (cursor k)).items.length = pageSize
  last : (toAnswers.page pageSize (cursor pages)).items = []
  fits : ∀ k < pages, committed (toAnswers.details (toAnswers.page pageSize (cursor k))) {} = true

/-- A position in the catalogue, as a checkpoint keeps it: the cursor, the page and the products
synced. -/
abbrev Point := String × Int × Int

def rowPoint (row : SyncStateRow) : Point := (row.lastCursor, row.lastPage, row.totalSynced)

def keptPoint (row : Option SyncStateRow) : Point := (row.map rowPoint).getD ("", 0, 0)

def cpPoint (cp : SyncCheckpoint) : Point := rowPoint (rowOf cp)

def varsPoint (v : RunVars) : Point := (v.lastId, v.page, v.total)

def stored (s : Shared) : Set OzonProduct := {row | row ∈ s.products.rows}

namespace PagedCatalogue

variable {pageSize : Int} (K : PagedCatalogue pageSize)

def pageAt (n : Nat) : OzonPage := K.page pageSize (K.cursor n)

def detailsAt (n : Nat) : List OzonProduct := K.details (K.pageAt n)

def batch (n : Nat) : Set OzonProduct := {row | row ∈ (K.detailsAt n).map storedRow}

def batches : List (Set OzonProduct) := (List.range K.pages).map K.batch

def synced (n : Nat) : Int := ((List.range n).map fun k => ((K.detailsAt k).length : Int)).sum

def point (n : Nat) : Point := (K.cursor n, n, K.synced n)

@[simp] theorem length_batches : K.batches.length = K.pages := by simp [batches]

theorem getElem_batches {n : Nat} (lt : n < K.batches.length) : K.batches[n] = K.batch n := by
  simp [batches]

@[simp] theorem point_page (n : Nat) : (K.point n).2.1 = n := rfl

theorem point_zero : K.point 0 = ("", 0, 0) := by simp [point, synced, K.first]

theorem synced_succ (n : Nat) : K.synced (n + 1) = K.synced n + (K.detailsAt n).length := by
  simp [synced, List.range_succ]

end PagedCatalogue

theorem PagedCatalogue.writes {pageSize : Int} (K : PagedCatalogue pageSize) {n : Nat} {r : Reply}
    (lt : n < K.pages) (database : r.dbOk = true) : committed (K.detailsAt n) r = true := by
  unfold committed
  rw [database]
  exact K.fits n lt

theorem stored_upsertProducts {s : Shared} {r : Reply} {details : List OzonProduct}
    (ok : committed details r = true) :
    stored (upsertProducts s r.dbOk details) =
      overlay OzonProduct.id (stored s) {row | row ∈ details.map storedRow} := by
  ext row
  have ids : row.id ∈ Set.image OzonProduct.id {row | row ∈ details.map storedRow} ↔
      row.id ∈ details.map OzonProduct.id := by
    constructor
    · rintro ⟨new, mem, same⟩
      obtain ⟨p, read, rfl⟩ := List.mem_map.mp mem
      exact List.mem_map.mpr ⟨p, read, same⟩
    · intro mem
      obtain ⟨p, read, same⟩ := List.mem_map.mp mem
      exact ⟨storedRow p, List.mem_map_of_mem read, same⟩
  rw [mem_overlay, ids]
  exact mem_upsertProducts ok

section Points

variable {pageSize : Int} {K : PagedCatalogue pageSize} {T₀ T : Set OzonProduct} {n : Nat}

theorem leads_next (leads : Leads OzonProduct.id K.batches T₀ T n) (lt : n < K.pages) :
    Leads OzonProduct.id K.batches T₀ (overlay OzonProduct.id T (K.batch n)) (n + 1) := by
  have within : n < K.batches.length := K.length_batches.symm ▸ lt
  rw [← K.getElem_batches within]
  exact leads.next within

theorem leads_again {m : Nat} (leads : Leads OzonProduct.id K.batches T₀ T m) (le : m ≤ n)
    (lt : n < K.pages) :
    Leads OzonProduct.id K.batches T₀ (overlay OzonProduct.id T (K.batch n)) m := by
  have within : n < K.batches.length := K.length_batches.symm ▸ lt
  rw [← K.getElem_batches within]
  exact leads.again le within

theorem last_of_hasMore (lt : n < K.pages) (none_more : (K.pageAt n).hasMore = false) :
    n + 1 = K.pages := by
  by_contra other
  have more : (K.pageAt n).hasMore = true :=
    (hasMore_fetchPageCursor (K.answers n lt.le)).mpr
      ⟨K.listed n lt, K.full n (lt_of_le_of_ne lt other)⟩
  rw [more] at none_more
  cases none_more

theorem empty_iff (le : n ≤ K.pages) : (K.pageAt n).items.isEmpty = true ↔ n = K.pages := by
  rw [List.isEmpty_iff]
  constructor
  · intro empty
    by_contra other
    exact K.listed n (lt_of_le_of_ne le other) empty
  · rintro rfl
    exact K.last

end Points

end Scand.Ozon.Pages
