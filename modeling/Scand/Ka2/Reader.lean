/- path: Scand/Ka2/Reader
   layer: code model
   digest: Ka2Inventory: one page request with its retries, chunks of keys, and the paging readers of
   the flat 1C objects. -/

import Scand.Foundation.JsonValue
import Scand.Foundation.Outcomes
import Scand.Foundation.WorkQueue
import Mathlib.Data.List.Enum

set_option autoImplicit false
set_option relaxedAutoImplicit false

namespace Scand.Ka2.Reader

open Scand.Foundation.JsonValue
open Scand.Foundation.Outcomes (Run)
open Scand.Foundation.WorkQueue (Returns returns_ok exists_returns_ok forall₂_mem_left
  forall₂_mem_right)

structure Ka2Options where
  chunkSize : Nat := 40
  pageSizeFlat : Nat := 5000
  maxRetries : Int := 3
  parallelWorkers : Int := 4

inductive Source
  | warehouses | analytics | stocks | costs | suppliers
  deriving DecidableEq

/-- Where in a pull a request is made: the reader, the chunk of keys, and the halves taken when that
chunk was split. -/
structure Site where
  source : Source
  chunk : Nat := 0
  piece : List Bool := []
  deriving DecidableEq

structure PageRequest where
  path : String
  params : List (String × String)
  skip : Nat
  top : Nat

/-- A server: its answer to every attempt of every request of one pull. -/
abbrev Server := Site → PageRequest → Nat → HttpReply

structure HttpError where
  status : Int
  what : String

def getStr (o : Fields) (key : String) : String :=
  ((o.lookup key).bind Json.asString?).getD ""

/-- A text that is no number counts as zero; so do the words for infinite and undefined values here,
which no amount of a pull stands for. -/
def getNum (o : Fields) (key : String) : ℚ :=
  match o.lookup key with
  | some (.double v) => v
  | some (.int64 v) => v
  | some (.uint64 v) => v
  | some (.string v) =>
      match stod v with
      | some (.finite q) => q
      | _ => 0
  | _ => 0

def getBool (o : Fields) (key : String) (default : Bool) : Bool :=
  ((o.lookup key).bind Json.asBool?).getD default

def extractValue : Json → Option (List Json)
  | .object o => (o.lookup "value").bind Json.asArray?
  | _ => none

/-- `chunk_vector`: a chunk at every multiple of the size below the length; a chunk size of zero
stands for 40. -/
def chunkVector (values : List String) (chunkSize : Nat) : List (List String) :=
  let size := if chunkSize = 0 then 40 else chunkSize
  (List.range ((values.length + size - 1) / size)).map fun k => (values.drop (k * size)).take size

def buildGuidFilter (field : String) (guids : List String) : String :=
  " or ".intercalate (guids.map fun g => field ++ " eq guid'" ++ g ++ "'")

def attempts (server : Server) (site : Site) (request : PageRequest) :
    Nat → Nat → Except HttpError (Except String Json)
  | 0, _ => .error { status := 0, what := "KA2 read_page failed: " ++ request.path }
  | left + 1, attempt =>
      let r := server site request attempt
      if r.statusCode = 200 then .ok r.body
      else if r.statusCode = 414 then .error { status := 414, what := "URI Too Long" }
      else attempts server site request left (attempt + 1)

/-- `read_page`: the body of the answer, or the error thrown after the last attempt. -/
def readPage (opts : Ka2Options) (server : Server) (site : Site) (request : PageRequest) :
    Except HttpError (Except String Json) :=
  attempts server site request opts.maxRetries.toNat 1

section FirstAttempt

variable {opts : Ka2Options} {server : Server} {site : Site} {request : PageRequest}

private theorem some_attempt (tries : 0 < opts.maxRetries) :
    ∃ left, readPage opts server site request = attempts server site request (left + 1) 1 := by
  obtain ⟨left, some_left⟩ : ∃ left, opts.maxRetries.toNat = left + 1 :=
    ⟨opts.maxRetries.toNat - 1, by omega⟩
  exact ⟨left, by rw [readPage, some_left]⟩

theorem readPage_answered (tries : 0 < opts.maxRetries) {reply : HttpReply}
    (first : server site request 1 = reply) (ok : reply.statusCode = 200) :
    readPage opts server site request = .ok reply.body := by
  obtain ⟨left, same⟩ := some_attempt tries
  rw [same, attempts, first]
  simp only [ok, if_true]

theorem readPage_refused (tries : 0 < opts.maxRetries)
    (first : (server site request 1).statusCode = 414) :
    readPage opts server site request = .error { status := 414, what := "URI Too Long" } := by
  obtain ⟨left, same⟩ := some_attempt tries
  rw [same, attempts]
  simp only [first]
  rfl

end FirstAttempt

structure ChunkRead where
  rows : List Fields := []
  caught : List String := []

/-- The page loop of the flat readers from offset `skip` on. A caught request error ends the loop and
keeps the rows read so far; a body that is no JSON is thrown. `none`: the fuel ends first. -/
def readPages (pageSize : Nat) (read : Nat → Except HttpError (Except String Json))
    (caughtAs : String) : Nat → Nat → Option (Except String ChunkRead)
  | 0, _ => none
  | fuel + 1, skip =>
      match read skip with
      | .error e => some (.ok { caught := [caughtAs ++ e.what] })
      | .ok (.error what) => some (.error what)
      | .ok (.ok data) =>
          match extractValue data with
          | none => some (.ok {})
          | some items =>
              if items.isEmpty then some (.ok {})
              else if items.length < pageSize then some (.ok { rows := Json.objects items })
              else
                (readPages pageSize read caughtAs fuel (skip + items.length)).map fun rest =>
                  rest.map fun more => { more with rows := Json.objects items ++ more.rows }

structure FlatQuery where
  source : Source
  path : String
  filterField : String
  selectFields : String

def FlatQuery.params (q : FlatQuery) (chunk : List String) : List (String × String) :=
  [("$format", "json"), ("$filter", buildGuidFilter q.filterField chunk)] ++
    (if q.selectFields = "" then [] else [("$select", q.selectFields)])

def FlatQuery.readAt (q : FlatQuery) (opts : Ka2Options) (server : Server) (chunk : List String)
    (index skip : Nat) : Except HttpError (Except String Json) :=
  readPage opts server { source := q.source, chunk := index }
    { path := q.path, params := q.params chunk, skip := skip, top := opts.pageSizeFlat }

def FlatQuery.readChunk (q : FlatQuery) (opts : Ka2Options) (server : Server) (fuel : Nat)
    (task : List String × Nat) : Option (Except String ChunkRead) :=
  readPages opts.pageSizeFlat (q.readAt opts server task.1 task.2) "KA2 parallel chunk err: " fuel 0

def workers (opts : Ka2Options) : Nat := (max 1 opts.parallelWorkers).toNat

theorem workers_pos (opts : Ka2Options) : 0 < workers opts := by
  unfold workers
  omega

/-- The rows and the caught errors of the chunks, in the order of their delivery. -/
def collect (reads : List ChunkRead) : List Fields × List String :=
  (reads.flatMap ChunkRead.rows, reads.flatMap ChunkRead.caught)

def readChunkedParallel (opts : Ka2Options) (server : Server) (fuel : Nat) (q : FlatQuery)
    (values : List String) : Run (List Fields) := fun r =>
  if values.isEmpty then r = .ok ([], [])
  else
    ∃ joined, Returns (workers opts) (chunkVector values opts.chunkSize).zipIdx
      (q.readChunk opts server fuel) joined ∧ r = joined.map collect

private theorem chunks_flatten (values : List String) (size count : Nat) :
    ((List.range count).map fun k => (values.drop (k * size)).take size).flatten =
      values.take (count * size) := by
  induction count with
  | zero => simp
  | succ count ih =>
      rw [List.range_succ, List.map_append, List.flatten_append, ih, Nat.succ_mul, List.take_add]
      simp

theorem chunkVector_flatten (values : List String) (chunkSize : Nat) :
    (chunkVector values chunkSize).flatten = values := by
  have covers : ∀ size, 0 < size → values.length ≤ (values.length + size - 1) / size * size := by
    intro size pos
    have division := Nat.div_add_mod (values.length + size - 1) size
    have below := Nat.mod_lt (values.length + size - 1) pos
    rw [Nat.mul_comm] at division
    omega
  unfold chunkVector
  rw [chunks_flatten, List.take_of_length_le (covers _ (by split <;> omega))]

@[simp] theorem chunkVector_nil (chunkSize : Nat) : chunkVector [] chunkSize = [] := by
  have none_below : ∀ size, 0 < size → (size - 1) / size = 0 := fun size pos =>
    Nat.div_eq_of_lt (Nat.sub_lt pos Nat.one_pos)
  unfold chunkVector
  dsimp only
  rw [List.length_nil, Nat.zero_add, none_below _ (by split <;> omega)]
  rfl

theorem chunkVector_ne_nil {values : List String} {chunkSize : Nat} {chunk : List String}
    (mem : chunk ∈ chunkVector values chunkSize) : chunk ≠ [] := by
  have some_key : ∀ size, 0 < size → ∀ k, k < (values.length + size - 1) / size →
      (values.drop (k * size)).take size ≠ [] := by
    intro size positive k below none_left
    have inside : (k + 1) * size ≤ values.length + size - 1 :=
      (Nat.le_div_iff_mul_le positive).mp below
    have length := congrArg List.length none_left
    rw [Nat.succ_mul] at inside
    rw [List.length_take, List.length_drop, List.length_nil] at length
    omega
  simp only [chunkVector, List.mem_map, List.mem_range] at mem
  obtain ⟨k, below, rfl⟩ := mem
  exact some_key _ (by split <;> omega) k below

theorem chunk_sublist {values : List String} {chunkSize : Nat} {chunk : List String}
    (mem : chunk ∈ chunkVector values chunkSize) : chunk.Sublist values := by
  have within := List.sublist_flatten_of_mem mem
  rwa [chunkVector_flatten] at within

section Pages

variable {pageSize : Nat} {read : Nat → Except HttpError (Except String Json)} {caughtAs : String}

def pageItems : Except HttpError (Except String Json) → Option (List Json)
  | .ok (.ok data) => extractValue data
  | _ => none

/-- The offsets that are asked for after `skip`: a full page makes the loop ask for the next one. -/
inductive Asked (pageSize : Nat) (read : Nat → Except HttpError (Except String Json)) :
    Nat → Nat → Prop
  | here {skip : Nat} : Asked pageSize read skip skip
  | next {skip later : Nat} {items : List Json} : pageItems (read skip) = some items →
      items ≠ [] → pageSize ≤ items.length → Asked pageSize read (skip + items.length) later →
      Asked pageSize read skip later

abbrev OnPages (pageSize : Nat) (read : Nat → Except HttpError (Except String Json)) (skip : Nat)
    (o : Fields) : Prop :=
  ∃ later items, Asked pageSize read skip later ∧ pageItems (read later) = some items ∧
    Json.object o ∈ items

section OnePage

variable {skip : Nat} {items : List Json} {o : Fields}

theorem onPages_none (no_items : pageItems (read skip) = none) : ¬ OnPages pageSize read skip o := by
  intro given
  obtain ⟨later, items, asked, page, -⟩ := given
  cases asked with
  | here =>
      rw [no_items] at page
      cases page
  | next again =>
      rw [no_items] at again
      cases again

theorem onPages_last (page : pageItems (read skip) = some items)
    (last : items = [] ∨ items.length < pageSize) :
    OnPages pageSize read skip o ↔ Json.object o ∈ items := by
  constructor
  · intro given
    obtain ⟨later, others, asked, there, mem⟩ := given
    cases asked with
    | here =>
        rw [page] at there
        cases there
        exact mem
    | next again nonempty full _ =>
        rw [page] at again
        cases again
        rcases last with empty | short
        · exact absurd empty nonempty
        · exact absurd full (Nat.not_le.mpr short)
  · intro mem
    exact ⟨skip, items, .here, page, mem⟩

theorem onPages_full (page : pageItems (read skip) = some items) (nonempty : items ≠ [])
    (full : pageSize ≤ items.length) :
    OnPages pageSize read skip o ↔
      Json.object o ∈ items ∨ OnPages pageSize read (skip + items.length) o := by
  constructor
  · intro given
    obtain ⟨later, others, asked, there, mem⟩ := given
    cases asked with
    | here =>
        rw [page] at there
        cases there
        exact Or.inl mem
    | next again _ _ asked =>
        rw [page] at again
        cases again
        exact Or.inr ⟨later, others, asked, there, mem⟩
  · intro given
    rcases given with mem | ⟨later, others, asked, there, mem⟩
    · exact ⟨skip, items, .here, page, mem⟩
    · exact ⟨later, others, .next page nonempty full asked, there, mem⟩

end OnePage

theorem readPages_cases {fuel skip : Nat} {got : ChunkRead}
    (ended : readPages pageSize read caughtAs (fuel + 1) skip = some (.ok got)) :
    (pageItems (read skip) = none ∧ got.rows = []) ∨
    ∃ items, pageItems (read skip) = some items ∧
      (((items = [] ∨ items.length < pageSize) ∧ got.rows = Json.objects items) ∨
        (items ≠ [] ∧ pageSize ≤ items.length ∧ ∃ more,
          readPages pageSize read caughtAs fuel (skip + items.length) = some (.ok more) ∧
            got.rows = Json.objects items ++ more.rows)) := by
  simp only [readPages] at ended
  cases answer : read skip with
  | error e =>
      rw [answer] at ended
      cases ended
      exact Or.inl ⟨rfl, rfl⟩
  | ok body =>
      cases body with
      | error what =>
          rw [answer] at ended
          cases ended
      | ok data =>
          rw [answer] at ended
          dsimp only at ended
          change (extractValue data = none ∧ _) ∨ ∃ items, extractValue data = some items ∧ _
          cases value : extractValue data with
          | none =>
              rw [value] at ended
              cases ended
              exact Or.inl ⟨rfl, rfl⟩
          | some items =>
              rw [value] at ended
              dsimp only at ended
              refine Or.inr ⟨items, rfl, ?_⟩
              split at ended
              · rename_i empty
                rw [List.isEmpty_iff] at empty
                cases ended
                exact Or.inl ⟨Or.inl empty, by rw [empty]; rfl⟩
              · rename_i nonempty
                rw [List.isEmpty_iff] at nonempty
                split at ended
                · rename_i short
                  cases ended
                  exact Or.inl ⟨Or.inr short, rfl⟩
                · rename_i full
                  obtain ⟨rest, rest_ended, same⟩ := Option.map_eq_some_iff.mp ended
                  cases rest with
                  | error e => cases same
                  | ok more =>
                      cases same
                      exact Or.inr ⟨nonempty, Nat.not_lt.mp full, more, rest_ended, rfl⟩

theorem mem_readPages {fuel skip : Nat} {got : ChunkRead}
    (ended : readPages pageSize read caughtAs fuel skip = some (.ok got)) (o : Fields) :
    o ∈ got.rows ↔ OnPages pageSize read skip o := by
  induction fuel generalizing skip got with
  | zero => cases ended
  | succ fuel ih =>
      rcases readPages_cases ended with ⟨no_items, rows⟩ | ⟨items, page, ⟨last, rows⟩ |
        ⟨nonempty, full, more, rest, rows⟩⟩
      · rw [rows]
        exact iff_of_false List.not_mem_nil (onPages_none no_items)
      · rw [rows, Json.mem_objects, onPages_last page last]
      · rw [rows, List.mem_append, Json.mem_objects, ih rest, onPages_full page nonempty full]

end Pages

section Chunks

variable {opts : Ka2Options} {server : Server} {fuel : Nat} {q : FlatQuery} {values : List String}

theorem mem_readChunkedParallel {rows : List Fields} {caught : List String}
    (read : readChunkedParallel opts server fuel q values (.ok (rows, caught))) (o : Fields) :
    o ∈ rows ↔ ∃ task ∈ (chunkVector values opts.chunkSize).zipIdx,
      ∃ skip items, Asked opts.pageSizeFlat (q.readAt opts server task.1 task.2) 0 skip ∧
        pageItems (q.readAt opts server task.1 task.2 skip) = some items ∧
          Json.object o ∈ items := by
  unfold readChunkedParallel at read
  split at read
  · rename_i empty
    rw [List.isEmpty_iff] at empty
    cases read
    simp [empty]
  · obtain ⟨joined, returned, same⟩ := read
    cases joined with
    | error e => cases same
    | ok reads =>
        cases same
        obtain ⟨results, outcomes, perm⟩ := returns_ok (workers_pos opts) returned
        simp only [List.mem_flatMap, perm.mem_iff]
        constructor
        · intro given
          obtain ⟨got, mem, row⟩ := given
          obtain ⟨task, listed, ended⟩ := forall₂_mem_right outcomes mem
          exact ⟨task, listed, (mem_readPages ended o).mp row⟩
        · intro given
          obtain ⟨task, listed, asked⟩ := given
          obtain ⟨got, mem, ended⟩ := forall₂_mem_left outcomes listed
          exact ⟨got, mem, (mem_readPages ended o).mpr asked⟩

theorem exists_readChunkedParallel (got : List String × Nat → ChunkRead)
    (all : ∀ task ∈ (chunkVector values opts.chunkSize).zipIdx,
      q.readChunk opts server fuel task = some (.ok (got task))) :
    ∃ rows caught, readChunkedParallel opts server fuel q values (.ok (rows, caught)) := by
  unfold readChunkedParallel
  split
  · exact ⟨[], [], rfl⟩
  · obtain ⟨reads, returned⟩ : ∃ reads, Returns (workers opts)
        (chunkVector values opts.chunkSize).zipIdx (q.readChunk opts server fuel) (.ok reads) :=
      exists_returns_ok all
    exact ⟨_, _, .ok reads, returned, rfl⟩

end Chunks

end Scand.Ka2.Reader
