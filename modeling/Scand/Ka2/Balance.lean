/- path: Scand/Ka2/Balance
   layer: code model and its results
   digest: Ka2Inventory::read_balance_chunked, and when it returns every matching row of a register. -/

import Scand.Foundation.CutPieces
import Scand.Ka2.Reader
import Mathlib.Data.List.Sublists

set_option autoImplicit false
set_option relaxedAutoImplicit false

namespace Scand.Ka2.Balance

open Scand.Foundation.CutPieces
open Scand.Foundation.JsonValue
open Scand.Foundation.Outcomes (Run)
open Scand.Foundation.WorkQueue
open Scand.Ka2.Reader

structure BalanceQuery where
  source : Source
  registerName : String
  period : String
  dimensions : String
  filterField : String

def escapeOdataString (s : String) : String :=
  String.ofList (s.toList.flatMap fun c => if c.toNat = 39 then [c, c] else [c])

def BalanceQuery.path (q : BalanceQuery) (chunk : List String) : String :=
  q.registerName ++ "/Balance(Period=datetime'" ++ q.period ++ "',Condition='" ++
    escapeOdataString (buildGuidFilter q.filterField chunk) ++ "',Dimensions='" ++
    escapeOdataString q.dimensions ++ "')"

def vbChunk : Nat := 200

def balanceTop : Nat := 1000

def BalanceQuery.readAt (q : BalanceQuery) (opts : Ka2Options) (server : Server) (index : Nat)
    (piece : List Bool) (chunk : List String) : Except HttpError (Except String Json) :=
  readPage opts server { source := q.source, chunk := index, piece := piece }
    { path := q.path chunk, params := [("$format", "json")], skip := 0, top := balanceTop }

/-- `process_chunk`: a URL that is too long is split in halves, every other error is caught. -/
def processChunk (q : BalanceQuery) (opts : Ka2Options) (server : Server) (index : Nat)
    (piece : List Bool) (chunk : List String) : ChunkRead :=
  match q.readAt opts server index piece chunk with
  | .ok (.ok data) => { rows := Json.objects ((extractValue data).getD []) }
  | .ok (.error what) => { caught := ["KA2 balance error: " ++ what] }
  | .error e =>
      if _h : e.status = 414 ∧ 1 < chunk.length then
        let mid := chunk.length / 2
        let a := processChunk q opts server index (piece ++ [false]) (chunk.take mid)
        let b := processChunk q opts server index (piece ++ [true]) (chunk.drop mid)
        { rows := a.rows ++ b.rows, caught := a.caught ++ b.caught }
      else { caught := ["KA2 balance HttpError: " ++ e.what] }
termination_by chunk.length
decreasing_by
  · simp only [List.length_take]
    omega
  · simp only [List.length_drop]
    omega

def readBalanceChunked (q : BalanceQuery) (opts : Ka2Options) (server : Server)
    (values : List String) : Run (List Fields) := fun r =>
  if values.isEmpty then r = .ok ([], [])
  else
    ∃ joined, Returns (workers opts) (chunkVector values vbChunk).zipIdx
      (fun task => some (.ok (processChunk q opts server task.2 [] task.1))) joined ∧
        r = joined.map collect

def stocksQuery (period : String) : BalanceQuery where
  source := .stocks
  registerName := "AccumulationRegister_ТоварыНаСкладах"
  period := period
  dimensions := "Номенклатура,Характеристика,Склад"
  filterField := "Номенклатура_Key"

def costsQuery (period : String) : BalanceQuery where
  source := .costs
  registerName := "AccumulationRegister_СебестоимостьТоваров"
  period := period
  dimensions := "АналитикаУчетаНоменклатуры,Организация,Партия"
  filterField := "АналитикаУчетаНоменклатуры_Key"

/-- A register: its balance rows, and the filters that make the URL of a request too long. -/
structure Register where
  rows : List Fields
  tooLong : List String → Bool

def rowKey (field : String) (row : Fields) : Option String :=
  (row.lookup field).bind Json.asString?

def Register.matching (register : Register) (field : String) (keys : List String) : List Fields :=
  register.rows.filter (selects (rowKey field) keys)

def pageOf (rows : List Fields) : Json := .object [("value", .array (rows.map .object))]

/-- The server answers every request about keys of `values`: it refuses a URL that is too long, and
otherwise lists the matching rows up to the limit, in an order of its own. The filter of a single key
is never too long. -/
structure Answers (q : BalanceQuery) (opts : Ka2Options) (server : Server) (register : Register)
    (values : List String) : Prop where
  refuses : ∀ index piece chunk, chunk.Sublist values → 1 < chunk.length →
    register.tooLong chunk = true →
    ∃ what, q.readAt opts server index piece chunk = .error { status := 414, what := what }
  lists : ∀ index piece chunk, chunk.Sublist values →
    (1 < chunk.length → register.tooLong chunk = false) →
    ∃ part, Cut balanceTop (register.matching q.filterField chunk) part ∧
      q.readAt opts server index piece chunk = .ok (.ok (pageOf part))

/-- The filters that are answered with rows: a chunk, or the pieces it is split into. -/
def pieces (register : Register) (chunk : List String) : List (List String) :=
  if _h : 1 < chunk.length ∧ register.tooLong chunk = true then
    pieces register (chunk.take (chunk.length / 2)) ++
      pieces register (chunk.drop (chunk.length / 2))
  else [chunk]
termination_by chunk.length
decreasing_by
  · simp only [List.length_take]
    omega
  · simp only [List.length_drop]
    omega

/-- No answered filter has more matching rows than one request can return. -/
def FitsOnePage (register : Register) (field : String) (values : List String) : Prop :=
  ∀ piece ∈ (chunkVector values vbChunk).flatMap (pieces register),
    (register.matching field piece).length ≤ balanceTop

section Completeness

variable {q : BalanceQuery} {opts : Ka2Options} {server : Server} {register : Register}
  {values : List String}

theorem pieces_flatten (chunk : List String) : (pieces register chunk).flatten = chunk := by
  induction chunk using pieces.induct register with
  | case1 chunk long left right =>
      rw [pieces, dif_pos long, List.flatten_append, left, right, List.take_append_drop]
  | case2 chunk short =>
      rw [pieces, dif_neg short, List.flatten_singleton]

theorem processChunk_parts (answers : Answers q opts server register values) (index : Nat)
    (piece : List Bool) (chunk : List String) (sub : chunk.Sublist values) :
    ∃ parts, List.Forall₂ (fun p part => Cut balanceTop (register.matching q.filterField p) part)
        (pieces register chunk) parts ∧
      processChunk q opts server index piece chunk = { rows := parts.flatten, caught := [] } := by
  induction chunk using pieces.induct register generalizing piece with
  | case1 chunk long left right =>
      obtain ⟨what, refused⟩ := answers.refuses index piece chunk sub long.1 long.2
      obtain ⟨parts₁, cuts₁, read₁⟩ := left (piece ++ [false])
        ((List.take_sublist _ _).trans sub)
      obtain ⟨parts₂, cuts₂, read₂⟩ := right (piece ++ [true])
        ((List.drop_sublist _ _).trans sub)
      refine ⟨parts₁ ++ parts₂, ?_, ?_⟩
      · rw [pieces, dif_pos long]
        exact List.rel_append cuts₁ cuts₂
      · rw [processChunk, refused]
        simp only [long.1, and_self, dite_true, read₁, read₂, List.flatten_append,
          List.append_nil]
  | case2 chunk short =>
      obtain ⟨part, cut, answered⟩ := answers.lists index piece chunk sub fun long => by
        simpa [long] using short
      refine ⟨[part], ?_, ?_⟩
      · rw [pieces, dif_neg short]
        exact .cons cut .nil
      · rw [processChunk, answered]
        simp [pageOf, extractValue, Json.asArray?]

theorem exists_readBalanceChunked (q : BalanceQuery) (opts : Ka2Options) (server : Server)
    (values : List String) :
    ∃ rows caught, readBalanceChunked q opts server values (.ok (rows, caught)) := by
  unfold readBalanceChunked
  split
  · exact ⟨[], [], rfl⟩
  · obtain ⟨out, returned⟩ : ∃ out, Returns (workers opts) (chunkVector values vbChunk).zipIdx
        (fun task => some (.ok (processChunk q opts server task.2 [] task.1)))
        (.ok out : Except String (List ChunkRead)) := exists_returns_ok fun _ _ => rfl
    exact ⟨_, _, .ok out, returned, rfl⟩

theorem mem_readBalanceChunked {rows : List Fields} {caught : List String}
    (read : readBalanceChunked q opts server values (.ok (rows, caught))) (o : Fields) :
    o ∈ rows ↔ ∃ task ∈ (chunkVector values vbChunk).zipIdx,
      o ∈ (processChunk q opts server task.2 [] task.1).rows := by
  unfold readBalanceChunked at read
  split at read
  · rename_i empty
    rw [List.isEmpty_iff] at empty
    cases read
    simp [empty]
  · obtain ⟨joined, returned, same⟩ := read
    cases joined with
    | error e => cases same
    | ok reads =>
        cases same
        obtain ⟨results, outcomes, perm⟩ := returns_ok (workers_pos opts) returned
        simp only [List.mem_flatMap, perm.mem_iff]
        constructor
        · intro given
          obtain ⟨got, mem, row⟩ := given
          obtain ⟨task, listed, outcome⟩ := forall₂_mem_right outcomes mem
          cases outcome
          exact ⟨task, listed, row⟩
        · intro given
          obtain ⟨task, listed, row⟩ := given
          obtain ⟨got, mem, outcome⟩ := forall₂_mem_left outcomes listed
          cases outcome
          exact ⟨_, mem, row⟩

theorem readChunks_parts (answers : Answers q opts server register values)
    {tasks : List (List String × Nat)} {results : List ChunkRead}
    (sub : ∀ task ∈ tasks, task.1.Sublist values)
    (outcomes : List.Forall₂ (fun (task : List String × Nat) read =>
      (some (.ok (processChunk q opts server task.2 [] task.1)) : Option (Except String ChunkRead)) =
        some (.ok read)) tasks results) :
    ∃ parts, List.Forall₂ (fun p part => Cut balanceTop (register.matching q.filterField p) part)
        ((tasks.map Prod.fst).flatMap (pieces register)) parts ∧
      collect results = (parts.flatten, []) := by
  induction outcomes with
  | nil => exact ⟨[], .nil, rfl⟩
  | cons outcome _ ih =>
      obtain ⟨parts₂, cuts₂, read₂⟩ := ih fun task mem => sub task (List.mem_cons_of_mem _ mem)
      obtain ⟨parts₁, cuts₁, read₁⟩ := processChunk_parts answers _ [] _ (sub _ List.mem_cons_self)
      simp only [Option.some.injEq, Except.ok.injEq] at outcome
      rw [read₁] at outcome
      subst outcome
      unfold collect at read₂ ⊢
      rw [Prod.mk.injEq] at read₂
      refine ⟨parts₁ ++ parts₂, ?_, ?_⟩
      · rw [List.map_cons, List.flatMap_cons]
        exact List.rel_append cuts₁ cuts₂
      · simp only [List.flatMap_cons, List.flatten_append, read₂.1, read₂.2, List.append_nil]

private theorem matching_nil : register.matching q.filterField [] = [] := by
  rw [Register.matching, List.filter_eq_nil_iff]
  intro row _
  unfold selects
  cases rowKey q.filterField row <;> simp

theorem readBalanceChunked_parts (answers : Answers q opts server register values)
    {r : Except String (List Fields × List String)}
    (read : readBalanceChunked q opts server values r) :
    ∃ parts, List.Forall₂ (fun p part => Cut balanceTop (register.matching q.filterField p) part)
        ((chunkVector values vbChunk).flatMap (pieces register)) parts ∧
      ∃ rows, r = .ok (rows, []) ∧ rows.Perm parts.flatten := by
  unfold readBalanceChunked at read
  split at read
  · rename_i empty
    rw [List.isEmpty_iff] at empty
    exact ⟨[], by simp [empty], [], read, .nil⟩
  obtain ⟨joined, returned, rfl⟩ := read
  cases joined with
  | error e =>
      obtain ⟨task, -, failed⟩ := returns_error returned
      cases failed
  | ok reads =>
      obtain ⟨results, outcomes, perm⟩ := returns_ok (workers_pos opts) returned
      have sub : ∀ task ∈ (chunkVector values vbChunk).zipIdx,
          task.1.Sublist values := by
        intro task mem
        have chunk := List.sublist_flatten_of_mem (List.fst_mem_of_mem_zipIdx mem)
        rwa [chunkVector_flatten] at chunk
      obtain ⟨parts, cuts, collected⟩ := readChunks_parts answers sub outcomes
      rw [List.zipIdx_map_fst] at cuts
      unfold collect at collected
      rw [Prod.mk.injEq] at collected
      have none_caught : reads.flatMap ChunkRead.caught = [] :=
        List.perm_nil.mp (collected.2 ▸ perm.flatMap_right ChunkRead.caught)
      refine ⟨parts, cuts, reads.flatMap ChunkRead.rows, ?_, ?_⟩
      · simp only [Except.map, collect, none_caught]
      · exact collected.1 ▸ perm.flatMap_right ChunkRead.rows

end Completeness

/-- A server that answers every request is read completely exactly when no answered filter matches
more than a thousand rows; the read always comes to its end, whatever the workers do. -/
theorem read_balance_chunked_complete_iff (q : BalanceQuery) (opts : Ka2Options) (server : Server)
    (register : Register) (values : List String) (distinct : values.Nodup)
    (answers : Answers q opts server register values) :
    (∃ r, readBalanceChunked q opts server values r) ∧
      ∀ r, readBalanceChunked q opts server values r →
        ∃ rows, r = .ok (rows, []) ∧
          (rows.Perm (register.matching q.filterField values) ↔
            FitsOnePage register q.filterField values) := by
  obtain ⟨some_rows, some_caught, ends⟩ := exists_readBalanceChunked q opts server values
  refine ⟨⟨_, ends⟩, fun r read => ?_⟩
  obtain ⟨parts, cuts, rows, rfl, perm⟩ := readBalanceChunked_parts answers read
  refine ⟨rows, rfl, ?_⟩
  have flattened : ((chunkVector values vbChunk).flatMap (pieces register)).flatten = values :=
    (flatten_pieces fun chunk _ => pieces_flatten chunk).trans
      (by rw [List.map_id', chunkVector_flatten])
  have whole : (register.matching q.filterField values).Perm
      (((chunkVector values vbChunk).flatMap (pieces register)).flatMap
        (register.matching q.filterField)) := by
    have split := filter_pieces_perm (rowKey q.filterField)
      ((chunkVector values vbChunk).flatMap (pieces register))
      (by rw [flattened]; exact distinct) register.rows
    rwa [flattened] at split
  unfold FitsOnePage
  rw [← cuts_perm_iff cuts]
  exact ⟨fun same => perm.symm.trans (same.trans whole),
    fun same => perm.trans (same.trans whole.symm)⟩

section Sample

def sampleKey : String := "0f0cb4d2-51a7-11ee-9a5b-00155d012345"

def sampleQuery : BalanceQuery := stocksQuery "2026-09-23T00:00:00"

def spreadRegister (n : Nat) : Register where
  rows := (List.range n).map fun i =>
    [("Номенклатура_Key", .string sampleKey), ("Склад_Key", .string (toString i))]
  tooLong _ := false

def spreadServer (n : Nat) : Server := fun _ request _ => {
  statusCode := 200
  body := .ok (pageOf (if request.path = sampleQuery.path [] then []
    else ((spreadRegister n).rows.drop request.skip).take request.top)) }

private theorem spread_matching (n : Nat) :
    (spreadRegister n).matching sampleQuery.filterField [sampleKey] = (spreadRegister n).rows := by
  rw [Register.matching, List.filter_eq_self]
  intro row mem
  obtain ⟨i, -, rfl⟩ := List.mem_map.mp mem
  have found : rowKey sampleQuery.filterField [("Номенклатура_Key", .string sampleKey),
      ("Склад_Key", .string (toString i))] = some sampleKey := by
    rw [rowKey, show sampleQuery.filterField = "Номенклатура_Key" from rfl, List.lookup_cons_self]
    rfl
  rw [selects, found]
  exact decide_eq_true (List.mem_singleton_self sampleKey)

private theorem spread_answers (n : Nat) :
    Answers sampleQuery {} (spreadServer n) (spreadRegister n) [sampleKey] where
  refuses index piece chunk _ _ long := by cases long
  lists index piece chunk sub _ := by
    rcases List.sublist_singleton.mp sub with rfl | rfl
    · refine ⟨[], ⟨[], ?_, rfl⟩, ?_⟩
      · rw [matching_nil]
      · simp [BalanceQuery.readAt, readPage, attempts, spreadServer]
    · have path : sampleQuery.path [sampleKey] ≠ sampleQuery.path [] := by
        decide +kernel
      refine ⟨(spreadRegister n).rows.take balanceTop, ⟨(spreadRegister n).rows, ?_, rfl⟩, ?_⟩
      · rw [spread_matching]
      · simp [BalanceQuery.readAt, readPage, attempts, spreadServer, path]

private theorem spread_pieces (n : Nat) :
    (chunkVector [sampleKey] vbChunk).flatMap (pieces (spreadRegister n)) = [[sampleKey]] := by
  have chunks : chunkVector [sampleKey] vbChunk = [[sampleKey]] := by decide
  rw [chunks, List.flatMap_singleton, pieces, dif_neg (by simp)]

private theorem spread_whole (n : Nat) :
    ((spreadRegister n).matching sampleQuery.filterField [sampleKey]).length = n := by
  rw [spread_matching, spreadRegister, List.length_map, List.length_range]

private theorem spread_read (n : Nat) :
    ∃ rows, readBalanceChunked sampleQuery {} (spreadServer n) [sampleKey] (.ok (rows, [])) ∧
      rows.length = min balanceTop n := by
  obtain ⟨_, _, read⟩ := exists_readBalanceChunked sampleQuery {} (spreadServer n) [sampleKey]
  obtain ⟨parts, cuts, rows, same, perm⟩ := readBalanceChunked_parts (spread_answers n) read
  refine ⟨rows, same ▸ read, ?_⟩
  rw [spread_pieces] at cuts
  cases cuts with
  | cons cut rest =>
      cases rest
      rw [perm.length_eq, List.flatten_singleton, cut.length, spread_whole]

/-- The read of the 1001 balances of one product ends with a thousand of them and no error. -/
theorem spread_balances_truncated :
    Answers sampleQuery {} (spreadServer 1001) (spreadRegister 1001) [sampleKey] ∧
      ∃ rows, readBalanceChunked sampleQuery {} (spreadServer 1001) [sampleKey] (.ok (rows, [])) ∧
        rows.length = 1000 ∧
        ¬ rows.Perm ((spreadRegister 1001).matching sampleQuery.filterField [sampleKey]) := by
  obtain ⟨rows, read, length⟩ := spread_read 1001
  refine ⟨spread_answers 1001, rows, read, length, fun same => ?_⟩
  have lengths := same.length_eq
  rw [spread_whole, length] at lengths
  cases lengths

def stockedKeys : List String := [sampleKey, "7c2d7b90-51a7-11ee-9a5b-00155d012345"]

def stockedRegister : List Fields := [
  [("Номенклатура_Key", .string "7c2d7b90-51a7-11ee-9a5b-00155d012345"), ("Склад_Key", .string "wh-1")],
  [("Номенклатура_Key", .string sampleKey), ("Склад_Key", .string "wh-1")],
  [("Номенклатура_Key", .string sampleKey), ("Склад_Key", .string "wh-2")]]

/-- A server that takes a single key in a request, and knows the requests by their paths. -/
def singleKeyServer : Server := fun _ request _ =>
  match stockedKeys.sublists.find? fun keys => request.path = sampleQuery.path keys with
  | none => { statusCode := 404, body := .error "" }
  | some keys =>
      if 1 < keys.length then { statusCode := 414, body := .error "" }
      else {
        statusCode := 200
        body := .ok (pageOf ((stockedRegister.filter
          (selects (rowKey sampleQuery.filterField) keys)).take request.top)) }

theorem path_known {keys : List String} (sub : keys.Sublist stockedKeys) :
    (stockedKeys.sublists.find? fun known => sampleQuery.path keys = sampleQuery.path known) =
      some keys := by
  have all : ∀ keys ∈ stockedKeys.sublists, (stockedKeys.sublists.find? fun known =>
      sampleQuery.path keys = sampleQuery.path known) = some keys := by
    decide +kernel
  exact all keys (List.mem_sublists.mpr sub)

def splitRegister : Register where
  rows := stockedRegister
  tooLong keys := decide (1 < keys.length)

private theorem split_answers :
    Answers sampleQuery {} singleKeyServer splitRegister stockedKeys where
  refuses index piece chunk sub long _ := by
    refine ⟨_, readPage_refused (by decide) ?_⟩
    dsimp only [singleKeyServer]
    rw [path_known sub]
    exact congrArg HttpReply.statusCode (if_pos long)
  lists index piece chunk sub short := by
    have single : ¬ 1 < chunk.length := fun long => by simpa [splitRegister, long] using short long
    refine ⟨_, ⟨_, List.Perm.refl _, rfl⟩, ?_⟩
    refine readPage_answered (by decide)
      (?_ : _ = ({ statusCode := 200, body := .ok _ } : HttpReply)) rfl
    dsimp only [singleKeyServer]
    rw [path_known sub]
    exact if_neg single

private theorem split_pieces :
    (chunkVector stockedKeys vbChunk).flatMap (pieces splitRegister) = stockedKeys.map ([·]) := by
  have chunks : chunkVector stockedKeys vbChunk = [stockedKeys] := by decide
  have single : ∀ key, pieces splitRegister [key] = [[key]] := fun key => by
    rw [pieces, dif_neg (by simp)]
  rw [chunks, List.flatMap_singleton, pieces, dif_pos (by decide)]
  exact congrArg₂ _ (single _) (single _)

theorem read_balance_chunked_complete_split :
    (chunkVector stockedKeys vbChunk).flatMap (pieces splitRegister) = stockedKeys.map ([·]) ∧
    (∃ r, readBalanceChunked sampleQuery {} singleKeyServer stockedKeys r) ∧
    ∀ r, readBalanceChunked sampleQuery {} singleKeyServer stockedKeys r →
      ∃ rows, r = .ok (rows, []) ∧ rows.Perm stockedRegister := by
  obtain ⟨ends, whole⟩ := read_balance_chunked_complete_iff sampleQuery {} singleKeyServer
    splitRegister stockedKeys (by decide) split_answers
  refine ⟨split_pieces, ends, fun r read => ?_⟩
  obtain ⟨rows, same, complete⟩ := whole r read
  have fits : FitsOnePage splitRegister sampleQuery.filterField stockedKeys := by
    intro piece _
    have within : (splitRegister.matching sampleQuery.filterField piece).length ≤ 3 :=
      List.length_filter_le _ _
    unfold balanceTop
    omega
  exact ⟨rows, same, complete.mpr fits⟩

end Sample

end Scand.Ka2.Balance
