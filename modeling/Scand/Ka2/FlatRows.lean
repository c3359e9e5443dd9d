/- path: Scand/Ka2/FlatRows
   layer: results
   digest: read_chunked_parallel comes to its end under every schedule of its workers, with the rows
   that the filter of each chunk selects. -/

import Scand.Ka2.Pull
import Mathlib.Data.List.Sublists

set_option autoImplicit false
set_option relaxedAutoImplicit false

namespace Scand.Ka2.FlatRows

open Scand.Foundation.CutPieces
open Scand.Foundation.JsonValue
open Scand.Foundation.WorkQueue
open Scand.Ka2.Balance (pageOf rowKey)
open Scand.Ka2.Pull (analyticsQuery)
open Scand.Ka2.Reader

def filterOf (request : PageRequest) : String := (request.params.lookup "$filter").getD ""

/-- A server with a fixed table under a path: every request gets the rows for which its filter holds,
in the order of the table, from `$skip` on and at most `$top` of them. -/
def Serves (server : Server) (path : String) (table : List Fields)
    (holds : String → Fields → Bool) : Prop :=
  ∀ site request attempt, request.path = path →
    server site request attempt = {
      statusCode := 200
      body := .ok (pageOf
        (((table.filter (holds (filterOf request))).drop request.skip).take request.top)) }

/-- A filter of some of the keys holds for the rows whose field is one of these. -/
def Selects (holds : String → Fields → Bool) (field : String) (table : List Fields)
    (values : List String) : Prop :=
  ∀ keys, keys.Sublist values → keys ≠ [] → ∀ row ∈ table,
    holds (buildGuidFilter field keys) row = selects (rowKey field) keys row

section Pages

variable {pageSize : Nat} {rows : List Fields} {caughtAs : String}
  {read : Nat → Except HttpError (Except String Json)}

theorem readPages_served (positive : 0 < pageSize)
    (served : ∀ skip, read skip = .ok (.ok (pageOf ((rows.drop skip).take pageSize))))
    {fuel skip : Nat} (enough : rows.length - skip < fuel) :
    readPages pageSize read caughtAs fuel skip = some (.ok { rows := rows.drop skip }) := by
  induction fuel generalizing skip with
  | zero => omega
  | succ fuel ih =>
      have value : extractValue (pageOf ((rows.drop skip).take pageSize)) =
          some (((rows.drop skip).take pageSize).map .object) := rfl
      have size : ((rows.drop skip).take pageSize).length = min pageSize (rows.length - skip) := by
        simp
      simp only [readPages, served, value, List.isEmpty_map, List.length_map, Json.objects_map_object]
      by_cases nothing : rows.drop skip = []
      · rw [nothing, List.take_nil, List.isEmpty_nil, if_pos rfl]
      · have left : 0 < rows.length - skip := by
          have some_left := List.length_pos_of_ne_nil nothing
          rw [List.length_drop] at some_left
          exact some_left
        have filled : ¬ ((rows.drop skip).take pageSize).isEmpty = true := by
          rw [List.isEmpty_iff, ← List.length_eq_zero_iff]
          omega
        rw [if_neg filled]
        by_cases short : ((rows.drop skip).take pageSize).length < pageSize
        · have last : (rows.drop skip).length ≤ pageSize := by
            rw [List.length_drop]
            omega
          rw [if_pos short, List.take_of_length_le last]
        · -- a full page is followed by the rows behind it
          have full : ((rows.drop skip).take pageSize).length = pageSize := by omega
          rw [if_neg short, full, ih (by omega), Option.map_some, Except.map, ← List.drop_drop,
            List.take_append_drop]

end Pages

section Chunks

variable {opts : Ka2Options} {server : Server} {q : FlatQuery} {values : List String}
  {table : List Fields} {holds : String → Fields → Bool}

theorem readAt_served (tries : 0 < opts.maxRetries) (serves : Serves server q.path table holds)
    (chunk : List String) (index skip : Nat) :
    q.readAt opts server chunk index skip = .ok (.ok (pageOf
      (((table.filter (holds (buildGuidFilter q.filterField chunk))).drop skip).take
        opts.pageSizeFlat))) := by
  have filtered : filterOf ⟨q.path, q.params chunk, skip, opts.pageSizeFlat⟩ =
      buildGuidFilter q.filterField chunk := by
    have other : ("$filter" : String) ≠ "$format" := by decide
    simp only [filterOf, FlatQuery.params, List.cons_append, List.nil_append, lookup_cons_if,
      if_neg other, if_true, Option.getD_some]
  rw [FlatQuery.readAt, readPage_answered tries (serves _ _ _ rfl) rfl, filtered]

end Chunks

/-- What is expected of the parallel read of the rows of some keys. -/
structure ReadsRows (q : FlatQuery) (opts : Ka2Options) (server : Server) (values : List String)
    (table : List Fields) (holds : String → Fields → Bool) (fuel : Nat) : Prop where
  ends : Terminates (workers opts) (chunkVector values opts.chunkSize).zipIdx
    (q.readChunk opts server fuel)
  returns : ∃ r, readChunkedParallel opts server fuel q values r
  chunks : ∀ r, readChunkedParallel opts server fuel q values r → ∃ rows, r = .ok (rows, []) ∧
    rows.Perm ((chunkVector values opts.chunkSize).flatMap fun chunk =>
      table.filter (holds (buildGuidFilter q.filterField chunk)))
  whole : values.Nodup → Selects holds q.filterField table values →
    ∀ r, readChunkedParallel opts server fuel q values r → ∃ rows, r = .ok (rows, []) ∧
      rows.Perm (table.filter (selects (rowKey q.filterField) values))

section Results

variable (q : FlatQuery) (opts : Ka2Options) (server : Server) (values : List String)
  (table : List Fields) (holds : String → Fields → Bool)

theorem chunks_perm (distinct : values.Nodup) (means : Selects holds q.filterField table values) :
    ((chunkVector values opts.chunkSize).flatMap fun chunk =>
        table.filter (holds (buildGuidFilter q.filterField chunk))).Perm
      (table.filter (selects (rowKey q.filterField) values)) := by
  have split := filter_pieces_perm (rowKey q.filterField) (chunkVector values opts.chunkSize)
    (by rw [chunkVector_flatten]; exact distinct) table
  rw [chunkVector_flatten] at split
  have same : ∀ chunk ∈ chunkVector values opts.chunkSize,
      table.filter (holds (buildGuidFilter q.filterField chunk)) =
        table.filter (selects (rowKey q.filterField) chunk) :=
    fun chunk mem => List.filter_congr (means chunk (chunk_sublist mem) (chunkVector_ne_nil mem))
  rw [List.flatMap_congr same]
  exact split.symm

/-- With fuel enough for the pages of each chunk, the read ends under every schedule of its workers,
with the rows of every chunk; for distinct keys these are the rows of the keys. -/
theorem read_chunked_parallel_whole (positive : 0 < opts.pageSizeFlat) (tries : 0 < opts.maxRetries)
    (serves : Serves server q.path table holds) :
    ∃ enough, ∀ fuel, enough ≤ fuel → ReadsRows q opts server values table holds fuel := by
  refine ⟨table.length + 1, fun fuel enough => ?_⟩
  let outcome : List String × Nat → ChunkRead := fun task =>
    { rows := table.filter (holds (buildGuidFilter q.filterField task.1)) }
  have read : ∀ task ∈ (chunkVector values opts.chunkSize).zipIdx,
      q.readChunk opts server fuel task = some (.ok (outcome task)) := by
    intro task _
    have within : (table.filter (holds (buildGuidFilter q.filterField task.1))).length ≤ table.length :=
      List.length_filter_le _ _
    exact readPages_served positive (fun skip => readAt_served tries serves task.1 task.2 skip) (by omega)
  have chunks : ∀ r, readChunkedParallel opts server fuel q values r → ∃ rows, r = .ok (rows, []) ∧
      rows.Perm ((chunkVector values opts.chunkSize).flatMap fun chunk =>
        table.filter (holds (buildGuidFilter q.filterField chunk))) := by
    intro r returned
    unfold readChunkedParallel at returned
    split at returned
    · rename_i empty
      rw [List.isEmpty_iff] at empty
      exact ⟨[], returned, by simp [empty]⟩
    · obtain ⟨joined, ended, rfl⟩ := returned
      obtain ⟨out, rfl, perm⟩ := returns_outcomes (workers_pos opts) read ended
      have caught : out.flatMap ChunkRead.caught = [] := by
        refine List.flatMap_eq_nil_iff.mpr fun got mem => ?_
        obtain ⟨task, -, rfl⟩ := List.mem_map.mp (perm.mem_iff.mp mem)
        rfl
      have in_order : ((chunkVector values opts.chunkSize).zipIdx.map outcome).flatMap ChunkRead.rows =
          (chunkVector values opts.chunkSize).flatMap fun chunk =>
            table.filter (holds (buildGuidFilter q.filterField chunk)) := by
        conv_rhs => rw [← List.zipIdx_map_fst 0 (chunkVector values opts.chunkSize), List.flatMap_map]
        exact List.flatMap_map _ _ _
      exact ⟨_, by rw [Except.map, collect, caught], in_order ▸ perm.flatMap_right ChunkRead.rows⟩
  have total : ∀ task ∈ (chunkVector values opts.chunkSize).zipIdx,
      (q.readChunk opts server fuel task).isSome := by
    intro task mem
    rw [read task mem]
    rfl
  obtain ⟨rows, caught, returned⟩ := exists_readChunkedParallel outcome read
  refine ⟨terminates _ total, ⟨_, returned⟩, chunks, ?_⟩
  intro distinct means r returned
  obtain ⟨rows, same, perm⟩ := chunks r returned
  exact ⟨rows, same, perm.trans (chunks_perm q opts values table holds distinct means)⟩

end Results

section Sample

def twoKeys : List String := ["0f0cb4d2-51a7-11ee-9a5b-00155d012345", "7c2d7b90-51a7-11ee-9a5b-00155d012345"]

def keysTable : List Fields := [
  [("Ref_Key", .string "a-1"), ("Номенклатура_Key", .string "7c2d7b90-51a7-11ee-9a5b-00155d012345")],
  [("Ref_Key", .string "a-2"), ("Номенклатура_Key", .string "0f0cb4d2-51a7-11ee-9a5b-00155d012345")],
  [("Ref_Key", .string "a-3"), ("Номенклатура_Key", .string "7c2d7b90-51a7-11ee-9a5b-00155d012345")]]

def keysHold (filter : String) (row : Fields) : Bool :=
  twoKeys.sublists.any fun keys => decide (keys ≠ []) &&
    decide (filter = buildGuidFilter "Номенклатура_Key" keys) && selects (rowKey "Номенклатура_Key") keys row

def keysServer : Server := fun _ request _ => {
  statusCode := 200
  body := .ok (pageOf
    (((keysTable.filter (keysHold (filterOf request))).drop request.skip).take request.top)) }

theorem keys_select : Selects keysHold "Номенклатура_Key" keysTable twoKeys := by
  have all : ∀ keys ∈ twoKeys.sublists, keys ≠ [] → ∀ row ∈ keysTable,
      keysHold (buildGuidFilter "Номенклатура_Key" keys) row =
        selects (rowKey "Номенклатура_Key") keys row := by
    decide +kernel
  exact fun keys sub => all keys (List.mem_sublists.mpr sub)

theorem read_chunked_parallel_two_keys : ∃ fuel r,
    readChunkedParallel { chunkSize := 1, pageSizeFlat := 1, parallelWorkers := 2 } keysServer fuel
      analyticsQuery twoKeys r ∧
    ∃ rows, r = .ok (rows, []) ∧
      rows.Perm (keysTable.filter (selects (rowKey analyticsQuery.filterField) twoKeys)) := by
  obtain ⟨fuel, reads⟩ := read_chunked_parallel_whole analyticsQuery
    { chunkSize := 1, pageSizeFlat := 1, parallelWorkers := 2 } keysServer twoKeys keysTable keysHold
    (by decide) (by decide) fun _ _ _ _ => rfl
  obtain ⟨r, returned⟩ := (reads fuel (Nat.le_refl fuel)).returns
  exact ⟨fuel, r, returned, (reads fuel (Nat.le_refl fuel)).whole (by decide) keys_select r returned⟩

end Sample

end Scand.Ka2.FlatRows
