/- path: Scand/Ka2/PlainReader
   layer: results
   digest: read_chunked, which asks for one chunk after the other, and read_chunked_parallel return the same
   rows and catch the same errors, whatever the server answers and however the workers are scheduled. -/

import Scand.Ka2.Reader

set_option autoImplicit false
set_option relaxedAutoImplicit false

namespace Scand.Ka2.PlainReader

open Scand.Foundation.JsonValue
open Scand.Foundation.WorkQueue
open Scand.Ka2.Reader

def readChunked (opts : Ka2Options) (server : Server) (fuel : Nat) (q : FlatQuery)
    (values : List String) : Option (Except String (List Fields × List String)) :=
  if values.isEmpty then some (.ok ([], []))
  else
    (inOrder (fun task : List String × Nat =>
        readPages opts.pageSizeFlat (q.readAt opts server task.1 task.2) "KA2 chunked error: " fuel 0)
      (chunkVector values opts.chunkSize).zipIdx).map (Except.map collect)

def relabel (caughtAs : String) (r : ChunkRead) : ChunkRead :=
  { r with caught := r.caught.map (caughtAs ++ ·) }

section Labels

variable {pageSize : Nat} {read : Nat → Except HttpError (Except String Json)}

theorem readPages_label (caughtAs : String) (fuel skip : Nat) :
    readPages pageSize read caughtAs fuel skip =
      (readPages pageSize read "" fuel skip).map (Except.map (relabel caughtAs)) := by
  induction fuel generalizing skip with
  | zero => rfl
  | succ fuel ih =>
      simp only [readPages]
      rcases read skip with e | what | data
      · simp [Except.map, relabel]
      · rfl
      · dsimp only
        rcases extractValue data with _ | items
        · rfl
        · dsimp only
          by_cases nothing : items.isEmpty = true
          · rw [if_pos nothing, if_pos nothing]
            rfl
          · rw [if_neg nothing, if_neg nothing]
            by_cases short : items.length < pageSize
            · rw [if_pos short, if_pos short]
              rfl
            · rw [if_neg short, if_neg short, ih]
              rcases readPages pageSize read "" fuel (skip + items.length) with _ | _ | more <;> rfl

theorem collect_relabel (caughtAs : String) (reads : List ChunkRead) :
    collect (reads.map (relabel caughtAs)) =
      ((collect reads).1, (collect reads).2.map (caughtAs ++ ·)) := by
  simp [collect, relabel, List.flatMap_map, List.map_flatMap]

theorem collect_perm {left right : List ChunkRead} (perm : left.Perm right) :
    (collect left).1.Perm (collect right).1 ∧ (collect left).2.Perm (collect right).2 :=
  ⟨perm.flatMap_right _, perm.flatMap_right _⟩

end Labels

/-- What an outcome of the parallel reader has in common with the one of the plain reader. -/
def Agrees : Option (Except String (List Fields × List String)) →
    Except String (List Fields × List String) → Prop
  | some (.ok (rows, caught)), r => ∃ (others : List Fields) (errors errors' : List String),
      r = .ok (others, errors'.map ("KA2 parallel chunk err: " ++ ·)) ∧ others.Perm rows ∧
      caught = errors.map ("KA2 chunked error: " ++ ·) ∧ errors'.Perm errors
  | some (.error _), r => ∃ what, r = .error what
  | none, _ => False

section Chunks

variable {opts : Ka2Options} {server : Server} {fuel : Nat} {q : FlatQuery} {values : List String}

abbrev chunkRead (q : FlatQuery) (opts : Ka2Options) (server : Server) (fuel : Nat)
    (task : List String × Nat) : Option (Except String ChunkRead) :=
  readPages opts.pageSizeFlat (q.readAt opts server task.1 task.2) "" fuel 0

theorem readChunk_eq : q.readChunk opts server fuel = fun task =>
    (chunkRead q opts server fuel task).map (Except.map (relabel "KA2 parallel chunk err: ")) := by
  funext task
  exact readPages_label _ fuel 0

theorem readChunked_eq (some_value : values.isEmpty = false) : readChunked opts server fuel q values =
    (inOrder (chunkRead q opts server fuel) (chunkVector values opts.chunkSize).zipIdx).map
      (Except.map fun reads =>
        ((collect reads).1, (collect reads).2.map ("KA2 chunked error: " ++ ·))) := by
  have labelled : (fun task : List String × Nat =>
      readPages opts.pageSizeFlat (q.readAt opts server task.1 task.2) "KA2 chunked error: " fuel 0) =
      fun task => (chunkRead q opts server fuel task).map
        (Except.map (relabel "KA2 chunked error: ")) := by
    funext task
    exact readPages_label _ fuel 0
  rw [readChunked, some_value, labelled, inOrder_map]
  rcases inOrder (chunkRead q opts server fuel) _ with _ | _ | reads
  · rfl
  · rfl
  · exact congrArg (fun read => some (Except.ok read)) (collect_relabel _ reads)

theorem chunkRead_ends
    (ends : ∀ task ∈ (chunkVector values opts.chunkSize).zipIdx,
      (q.readChunk opts server fuel task).isSome) :
    ∀ task ∈ (chunkVector values opts.chunkSize).zipIdx, (chunkRead q opts server fuel task).isSome := by
  intro task mem
  have ended := ends task mem
  rwa [readChunk_eq, Option.isSome_map] at ended

end Chunks

/-- Every outcome of the parallel reader has the rows of the plain one in some order, with the same
errors caught on the way, or is an exception like the plain one's. -/
theorem parallel_agrees (opts : Ka2Options) (server : Server) (fuel : Nat) (q : FlatQuery)
    (values : List String)
    (ends : ∀ task ∈ (chunkVector values opts.chunkSize).zipIdx,
      (q.readChunk opts server fuel task).isSome) :
    Terminates (workers opts) (chunkVector values opts.chunkSize).zipIdx
      (q.readChunk opts server fuel) ∧
    (∃ r, readChunkedParallel opts server fuel q values r) ∧
    ∀ r, readChunkedParallel opts server fuel q values r →
      Agrees (readChunked opts server fuel q values) r := by
  refine ⟨terminates _ ends, ?_, ?_⟩
  · unfold readChunkedParallel
    split
    · exact ⟨_, rfl⟩
    · obtain ⟨joined, returned⟩ : ∃ joined, Returns (workers opts) _ _ joined := exists_returns ends
      exact ⟨_, joined, returned, rfl⟩
  · intro r returned
    unfold readChunkedParallel at returned
    cases nothing : values.isEmpty with
    | true =>
        rw [nothing, if_pos rfl] at returned
        rw [readChunked, nothing, returned]
        exact ⟨[], [], [], rfl, .refl _, rfl, .refl _⟩
    | false =>
        rw [nothing, if_neg Bool.false_ne_true] at returned
        obtain ⟨joined, run, rfl⟩ := returned
        rw [readChunk_eq] at run
        obtain ⟨reads, read, rfl⟩ := returns_map run
        have agreed := returns_inOrder (workers_pos opts) (chunkRead_ends ends) read
        rw [readChunked_eq nothing]
        cases plain : inOrder (chunkRead q opts server fuel)
            (chunkVector values opts.chunkSize).zipIdx with
        | none =>
            rw [plain] at agreed
            exact agreed.elim
        | some outcome =>
            rw [plain] at agreed
            cases outcome with
            | error what =>
                obtain ⟨e, rfl, -⟩ := agreed
                exact ⟨e, rfl⟩
            | ok results =>
                obtain ⟨out, rfl, perm⟩ := agreed
                obtain ⟨rows, errors⟩ := collect_perm perm
                exact ⟨(collect out).1, (collect results).2, (collect out).2,
                  congrArg Except.ok (collect_relabel _ out), rows, rfl, errors⟩

section Sample

def firstOnly : Server := fun site _ _ =>
  if site.chunk = 0 then
    { statusCode := 200, body := .ok (.object [("value", .array [.object [("Ref_Key", .string "a")]])]) }
  else { statusCode := 500, body := .error "no JSON" }

def refs : FlatQuery where
  source := .suppliers
  path := "InformationRegister"
  filterField := "Ref_Key"
  selectFields := ""

theorem parallel_agrees_firstOnly :
    ∃ r, readChunkedParallel { chunkSize := 1 } firstOnly 1 refs ["a", "b"] r ∧
      Agrees (readChunked { chunkSize := 1 } firstOnly 1 refs ["a", "b"]) r := by
  obtain ⟨-, ⟨r, returned⟩, agrees⟩ :=
    parallel_agrees { chunkSize := 1 } firstOnly 1 refs ["a", "b"] (by decide)
  exact ⟨r, returned, agrees r returned⟩

end Sample

end Scand.Ka2.PlainReader
