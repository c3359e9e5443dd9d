/- path: Scand/Ka2/UrlLimit
   layer: results
   digest: read_balance_chunked against a limit on the keys of a request: the answered requests
   partition the keys, and their rows are those of one request without a limit. -/

import Scand.Ka2.Balance
import Mathlib.Data.List.Sublists

set_option autoImplicit false
set_option relaxedAutoImplicit false

namespace Scand.Ka2.UrlLimit

open Scand.Foundation.CutPieces
open Scand.Foundation.JsonValue
open Scand.Foundation.WorkQueue
open Scand.Ka2.Balance
open Scand.Ka2.Reader

def answeredRequests (q : BalanceQuery) (opts : Ka2Options) (server : Server) (index : Nat)
    (piece : List Bool) (chunk : List String) : List (List String) :=
  match q.readAt opts server index piece chunk with
  | .ok _ => [chunk]
  | .error e =>
      if _h : e.status = 414 ∧ 1 < chunk.length then
        let mid := chunk.length / 2
        answeredRequests q opts server index (piece ++ [false]) (chunk.take mid) ++
          answeredRequests q opts server index (piece ++ [true]) (chunk.drop mid)
      else []
termination_by chunk.length
decreasing_by
  · simp only [List.length_take]
    omega
  · simp only [List.length_drop]
    omega

def BalanceRun (q : BalanceQuery) (opts : Ka2Options) (server : Server) (values : List String)
    (r : Except String (List Fields × List String)) (requests : List (List String)) : Prop :=
  if values.isEmpty then r = .ok ([], []) ∧ requests = []
  else
    ∃ out, Returns (workers opts) (chunkVector values vbChunk).zipIdx
        (fun task => some (.ok (processChunk q opts server task.2 [] task.1,
          answeredRequests q opts server task.2 [] task.1)))
        (.ok out : Except String (List (ChunkRead × List (List String)))) ∧
      r = .ok (collect (out.map Prod.fst)) ∧ requests = out.flatMap Prod.snd

def balanceRequest (q : BalanceQuery) (keys : List String) : PageRequest where
  path := q.path keys
  params := [("$format", "json")]
  skip := 0
  top := balanceTop

/-- A server that answers 414 exactly to requests with more than `m` keys, and otherwise lists the
rows of these keys, in an order of its own, up to the limit of a page. -/
structure Limited (q : BalanceQuery) (server : Server) (register : List Fields) (m : Nat)
    (values : List String) : Prop where
  refuses : ∀ site keys attempt, keys.Sublist values → m < keys.length →
    (server site (balanceRequest q keys) attempt).statusCode = 414
  lists : ∀ site keys, keys.Sublist values → keys ≠ [] → keys.length ≤ m → ∃ listed : List Fields,
    listed.Perm (register.filter (selects (rowKey q.filterField) keys)) ∧
      ∀ attempt, server site (balanceRequest q keys) attempt = {
        statusCode := 200
        body := .ok (pageOf (listed.take balanceTop)) }

/-- Every answered request has fewer rows than a page holds. -/
def FewRows (q : BalanceQuery) (opts : Ka2Options) (server : Server) (register : List Fields)
    (values : List String) : Prop :=
  ∀ task ∈ (chunkVector values vbChunk).zipIdx,
    ∀ keys ∈ answeredRequests q opts server task.2 [] task.1,
      (register.filter (selects (rowKey q.filterField) keys)).length < 1000

section Pieces

variable {q : BalanceQuery} {opts : Ka2Options} {server : Server} {register : List Fields} {m : Nat}
  {values : List String}

theorem readAt_refused (tries : 0 < opts.maxRetries) (limited : Limited q server register m values)
    (index : Nat) (piece : List Bool) {keys : List String} (sub : keys.Sublist values)
    (long : m < keys.length) :
    ∃ e, q.readAt opts server index piece keys = .error e ∧ e.status = 414 := by
  have refused := limited.refuses { source := q.source, chunk := index, piece := piece } keys 1 sub long
  exact ⟨{ status := 414, what := "URI Too Long" }, readPage_refused tries refused, rfl⟩

theorem readAt_listed (tries : 0 < opts.maxRetries) (limited : Limited q server register m values)
    (index : Nat) (piece : List Bool) {keys : List String} (sub : keys.Sublist values)
    (filled : keys ≠ []) (short : keys.length ≤ m) :
    ∃ listed : List Fields, listed.Perm (register.filter (selects (rowKey q.filterField) keys)) ∧
      q.readAt opts server index piece keys = .ok (.ok (pageOf (listed.take balanceTop))) := by
  obtain ⟨listed, perm, answered⟩ :=
    limited.lists { source := q.source, chunk := index, piece := piece } keys sub filled short
  exact ⟨listed, perm, readPage_answered tries (answered 1) rfl⟩

structure Covers (q : BalanceQuery) (register : List Fields) (chunk : List String)
    (requests : List (List String)) (read : ChunkRead) : Prop where
  flatten : requests.flatten = chunk
  filled : ∀ keys ∈ requests, keys ≠ []
  rows : read.rows.Perm
    (requests.flatMap fun keys => register.filter (selects (rowKey q.filterField) keys))
  caught : read.caught = []

theorem processChunk_covers (positive : 1 ≤ m) (tries : 0 < opts.maxRetries)
    (limited : Limited q server register m values) (index : Nat) (piece : List Bool)
    (chunk : List String) (sub : chunk.Sublist values) (filled : chunk ≠ [])
    (few : ∀ keys ∈ answeredRequests q opts server index piece chunk,
      (register.filter (selects (rowKey q.filterField) keys)).length < 1000) :
    Covers q register chunk (answeredRequests q opts server index piece chunk)
      (processChunk q opts server index piece chunk) := by
  induction size : chunk.length using Nat.strongRecOn generalizing chunk piece with
  | _ n ih =>
      by_cases short : chunk.length ≤ m
      · obtain ⟨listed, perm, answered⟩ := readAt_listed tries limited index piece sub filled short
        have requests : answeredRequests q opts server index piece chunk = [chunk] := by
          rw [answeredRequests, answered]
        have read : processChunk q opts server index piece chunk =
            { rows := listed.take balanceTop } := by
          rw [processChunk, answered]
          show ({ rows := Json.objects ((listed.take balanceTop).map .object) } : ChunkRead) = _
          rw [Json.objects_map_object]
        have fits : listed.length < 1000 := by
          rw [perm.length_eq]
          exact few chunk (requests ▸ List.mem_singleton_self chunk)
        rw [requests, read]
        refine ⟨List.flatten_singleton, ?_, ?_, rfl⟩
        · intro keys mem
          rwa [List.mem_singleton.mp mem]
        · rw [List.flatMap_singleton, List.take_of_length_le (by rw [balanceTop]; omega)]
          exact perm
      · have long : m < chunk.length := by omega
        obtain ⟨e, refused, status⟩ := readAt_refused tries limited index piece sub long
        have split : e.status = 414 ∧ 1 < chunk.length := ⟨status, by omega⟩
        let left := chunk.take (chunk.length / 2)
        let right := chunk.drop (chunk.length / 2)
        have requests : answeredRequests q opts server index piece chunk =
            answeredRequests q opts server index (piece ++ [false]) left ++
              answeredRequests q opts server index (piece ++ [true]) right := by
          rw [answeredRequests, refused]
          exact dif_pos split
        have read : processChunk q opts server index piece chunk = {
            rows := (processChunk q opts server index (piece ++ [false]) left).rows ++
              (processChunk q opts server index (piece ++ [true]) right).rows
            caught := (processChunk q opts server index (piece ++ [false]) left).caught ++
              (processChunk q opts server index (piece ++ [true]) right).caught } := by
          rw [processChunk, refused]
          exact dif_pos split
        have size_left : left.length = chunk.length / 2 := by
          rw [List.length_take]
          omega
        have size_right : right.length = chunk.length - chunk.length / 2 := List.length_drop
        have covers_left := ih left.length (by omega) (piece ++ [false]) left
          ((List.take_sublist _ _).trans sub) (List.ne_nil_of_length_pos (by omega))
          (fun keys mem => few keys (requests ▸ List.mem_append_left _ mem)) rfl
        have covers_right := ih right.length (by omega) (piece ++ [true]) right
          ((List.drop_sublist _ _).trans sub) (List.ne_nil_of_length_pos (by omega))
          (fun keys mem => few keys (requests ▸ List.mem_append_right _ mem)) rfl
        rw [requests, read]
        refine ⟨?_, ?_, ?_, ?_⟩
        · rw [List.flatten_append, covers_left.flatten, covers_right.flatten]
          exact List.take_append_drop _ _
        · intro keys mem
          rcases List.mem_append.mp mem with mem | mem
          · exact covers_left.filled keys mem
          · exact covers_right.filled keys mem
        · rw [List.flatMap_append]
          exact covers_left.rows.append covers_right.rows
        · rw [covers_left.caught, covers_right.caught, List.append_nil]

end Pieces

/-- What is expected of the balance read of some keys. -/
structure ReadsWhole (q : BalanceQuery) (opts : Ka2Options) (server : Server) (register : List Fields)
    (values : List String) : Prop where
  ends : Terminates (workers opts) (chunkVector values vbChunk).zipIdx fun task =>
    (some (.ok (processChunk q opts server task.2 [] task.1)) : Option (Except String ChunkRead))
  returns : ∃ r, readBalanceChunked q opts server values r
  asks : ∀ r, readBalanceChunked q opts server values r →
    ∃ requests, BalanceRun q opts server values r requests
  whole : ∀ r requests, BalanceRun q opts server values r requests →
    requests.flatten.Perm values ∧ (∀ keys ∈ requests, keys ≠ []) ∧
      ∃ rows, r = .ok (rows, []) ∧
        rows.Perm (register.filter (selects (rowKey q.filterField) values))

section Runs

variable {q : BalanceQuery} {opts : Ka2Options} {server : Server} {register : List Fields} {m : Nat}
  {values : List String}

theorem balanceRun_of_read {r : Except String (List Fields × List String)}
    (read : readBalanceChunked q opts server values r) :
    ∃ requests, BalanceRun q opts server values r requests := by
  unfold readBalanceChunked at read
  split at read
  · rename_i empty
    refine ⟨[], ?_⟩
    rw [BalanceRun, if_pos empty]
    exact ⟨read, rfl⟩
  · rename_i some_keys
    obtain ⟨joined, returned, rfl⟩ := read
    obtain ⟨results, recorded, rfl⟩ : ∃ results, Returns (workers opts)
        (chunkVector values vbChunk).zipIdx
        (fun task => some (.ok (processChunk q opts server task.2 [] task.1,
          answeredRequests q opts server task.2 [] task.1))) results ∧
        joined = results.map (List.map Prod.fst) := returns_map returned
    cases results with
    | error e =>
        obtain ⟨task, -, failed⟩ := returns_error recorded
        cases failed
    | ok out =>
        refine ⟨out.flatMap Prod.snd, ?_⟩
        rw [BalanceRun, if_neg some_keys]
        exact ⟨out, recorded, rfl, rfl⟩

theorem flatten_tasks (answered : List String × Nat → List (List String))
    (whole : ∀ task ∈ (chunkVector values vbChunk).zipIdx, (answered task).flatten = task.1) :
    ((chunkVector values vbChunk).zipIdx.flatMap answered).flatten = values := by
  rw [flatten_pieces whole, List.zipIdx_map_fst, chunkVector_flatten]

theorem balanceRun_whole (positive : 1 ≤ m) (tries : 0 < opts.maxRetries) (distinct : values.Nodup)
    (limited : Limited q server register m values) (few : FewRows q opts server register values)
    {r : Except String (List Fields × List String)} {requests : List (List String)}
    (run : BalanceRun q opts server values r requests) :
    requests.flatten.Perm values ∧ (∀ keys ∈ requests, keys ≠ []) ∧
      ∃ rows, r = .ok (rows, []) ∧
        rows.Perm (register.filter (selects (rowKey q.filterField) values)) := by
  unfold BalanceRun at run
  split at run
  · rename_i empty
    rw [List.isEmpty_iff] at empty
    obtain ⟨rfl, rfl⟩ := run
    exact ⟨by simp [empty], by simp, [], rfl, by rw [empty, filter_selects_nil]⟩
  · obtain ⟨out, returned, rfl, rfl⟩ := run
    let tasks := (chunkVector values vbChunk).zipIdx
    let answered : List String × Nat → List (List String) := fun task =>
      answeredRequests q opts server task.2 [] task.1
    let read : List String × Nat → ChunkRead := fun task =>
      processChunk q opts server task.2 [] task.1
    have covers : ∀ task ∈ tasks, Covers q register task.1 (answered task) (read task) := by
      intro task mem
      have chunk : task.1 ∈ chunkVector values vbChunk := List.fst_mem_of_mem_zipIdx mem
      exact processChunk_covers positive tries limited task.2 [] task.1 (chunk_sublist chunk)
        (chunkVector_ne_nil chunk) (few task mem)
    obtain ⟨_, same, perm⟩ : ∃ got, (.ok out : Except String _) = .ok got ∧
        got.Perm (tasks.map fun task => (read task, answered task)) :=
      returns_outcomes (workers_pos opts) (fun _ _ => rfl) returned
    obtain rfl := Except.ok.inj same
    have asked : (out.flatMap Prod.snd).Perm (tasks.flatMap answered) := by
      have all := perm.flatMap_right Prod.snd
      rwa [List.flatMap_map] at all
    have whole : (tasks.flatMap answered).flatten = values :=
      flatten_tasks answered fun task mem => (covers task mem).flatten
    refine ⟨?_, ?_, out.flatMap fun got => got.1.rows, ?_, ?_⟩
    · rw [← whole]
      exact asked.flatten
    · intro keys mem
      obtain ⟨task, listed, among⟩ := List.mem_flatMap.mp (asked.mem_iff.mp mem)
      exact (covers task listed).filled keys among
    · have none_caught : (out.map Prod.fst).flatMap ChunkRead.caught = [] := by
        refine List.flatMap_eq_nil_iff.mpr fun got mem => ?_
        obtain ⟨pair, among, rfl⟩ := List.mem_map.mp mem
        obtain ⟨task, listed, rfl⟩ := List.mem_map.mp (perm.mem_iff.mp among)
        exact (covers task listed).caught
      rw [collect, none_caught, List.flatMap_map]
    · have split := filter_pieces_perm (rowKey q.filterField) (tasks.flatMap answered)
        (by rw [whole]; exact distinct) register
      rw [whole] at split
      have rows := perm.flatMap_right fun got => got.1.rows
      rw [List.flatMap_map] at rows
      have pieces := List.Perm.flatMap_left tasks fun task mem => (covers task mem).rows
      rw [← List.flatMap_assoc] at pieces
      exact (rows.trans pieces).trans split.symm

end Runs

/-- Against a server that takes at most `m` keys in a request, the read ends under every schedule of
its workers; the answered requests partition the keys, and their rows are those of all keys. -/
theorem read_balance_chunked_whole (q : BalanceQuery) (opts : Ka2Options) (server : Server)
    (register : List Fields) (m : Nat) (values : List String) (positive : 1 ≤ m)
    (tries : 0 < opts.maxRetries) (distinct : values.Nodup)
    (limited : Limited q server register m values) (few : FewRows q opts server register values) :
    ReadsWhole q opts server register values where
  ends := terminates (workers opts) fun _ _ => rfl
  returns := by
    obtain ⟨rows, caught, returned⟩ := exists_readBalanceChunked q opts server values
    exact ⟨_, returned⟩
  asks := fun _ => balanceRun_of_read
  whole := fun _ _ => balanceRun_whole positive tries distinct limited few

section Sample

theorem singleKeyServer_limited : Limited sampleQuery singleKeyServer stockedRegister 1 stockedKeys where
  refuses site keys attempt sub long := by
    dsimp only [singleKeyServer, balanceRequest]
    rw [path_known sub]
    dsimp only
    rw [if_pos long]
  lists site keys sub _ short := by
    refine ⟨_, List.Perm.refl _, fun attempt => ?_⟩
    dsimp only [singleKeyServer, balanceRequest]
    rw [path_known sub]
    exact if_neg (Nat.not_lt.mpr short)

theorem read_balance_chunked_single_keys :
    ReadsWhole sampleQuery {} singleKeyServer stockedRegister stockedKeys := by
  refine read_balance_chunked_whole sampleQuery {} singleKeyServer stockedRegister 1 stockedKeys
    (Nat.le_refl 1) (by decide) (by decide) singleKeyServer_limited ?_
  intro task _ keys _
  have within : (stockedRegister.filter (selects (rowKey sampleQuery.filterField) keys)).length ≤ 3 :=
    List.length_filter_le _ _
  omega

end Sample

end Scand.Ka2.UrlLimit
