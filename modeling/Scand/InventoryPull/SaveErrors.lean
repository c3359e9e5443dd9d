/- path: Scand/InventoryPull/SaveErrors
   layer: results
   digest: The error of a failed import in the event and in the snapshot of its worker: it gets there
   exactly when nothing in it needs an escape. -/

import Scand.Foundation.JsonLiteral
import Scand.InventoryPull.SingleJob

set_option autoImplicit false
set_option relaxedAutoImplicit false

namespace Scand.InventoryPull.SaveErrors

open Scand.Foundation.Interleaving
open Scand.Foundation.JsonLiteral (Plain Literal Quoted spliced plain_of_quoted)
open Scand.Foundation.JsonValue
open Scand.Inventory.ImportSnapshot (importSnapshot)
open Scand.Inventory.Snapshot (SnapshotRequest)
open Scand.InventoryPull.Events
open Scand.InventoryPull.Jobs
open Scand.InventoryPull.SingleJob (sampleEnv)

/-- What a JSON parser is relied on for: the strings that it reads stand in its text as literals, and an
object with one member that needs no escape is read as it stands. -/
structure Standard (parse : String → Option Json) : Prop where
  quoted : ∀ text fields key value, parse text = some (.object fields) →
    (key, Json.string value) ∈ fields → Quoted text.toList value.toList
  member : ∀ key value : String, Plain key.toList → Plain value.toList →
    parse (String.ofList (spliced key.toList value.toList)) = some (.object [(key, .string value)])

def saveError (env : Env) (s : Shared) (req : SnapshotRequest) (r : Reply) : Option String :=
  if r.dbOk then
    let outcome := importSnapshot env.platform 1 req s.db
    match outcome.result.value with
    | some _ => none
    | none => some outcome.result.error
  else some r.what

/-- From a configuration on, whatever else runs, the event and the snapshot of a worker carry a text as
their error. -/
structure ErrorCarried (env : Env) (i : Nat) (d : Config Shared Pc) (error : String) : Prop where
  stored : ∀ d₁ d₂ job e next r, Reach (jobs env) anyLabel d d₁ →
    d₁.procs[i]? = some (.updateState job e next) → (jobs env).next d₁ (.act i r) = some d₂ →
    ∃ snap, d₂.shared.state = some snap ∧ snap.error = error
  broadcast : ∀ d₁ d₂ job e next r, Reach (jobs env) anyLabel d d₁ →
    d₁.procs[i]? = some (.broadcastEvent job e next) → (jobs env).next d₁ (.act i r) = some d₂ →
    ∃ obj, d₂.shared.broadcast = d₁.shared.broadcast ++ [obj] ∧
      obj.lookup "error" = some (.string error)

def failure (error : String) : Emission where
  stage := "error"
  status := "failed"
  extraJson := errorJson error

section Object

variable {parse : String → Option Json}

theorem lookup_mergeObject_cases (key : String) (dst src : Fields) :
    (mergeObject dst src).lookup key = dst.lookup key ∨
      ∃ value, (key, value) ∈ src ∧ (mergeObject dst src).lookup key = some value := by
  induction src generalizing dst with
  | nil => exact Or.inl rfl
  | cons field src ih =>
      have merged : mergeObject dst (field :: src) = mergeObject (setField dst field.1 field.2) src := rfl
      rw [merged]
      rcases ih (setField dst field.1 field.2) with kept | ⟨value, mem, found⟩
      · rw [kept, lookup_setField]
        split
        · rename_i same
          exact Or.inr ⟨field.2, by rw [same]; exact List.mem_cons_self, rfl⟩
        · exact Or.inl rfl
      · exact Or.inr ⟨value, List.mem_cons_of_mem _ mem, found⟩

theorem errorJson_eq (error : String) :
    errorJson error = String.ofList (spliced "error".toList error.toList) := by
  apply String.toList_injective
  simp [errorJson, spliced]

def header (jobId : String) (e : Emission) : Fields :=
  [("job_id", .string jobId), ("stage", .string e.stage), ("status", .string e.status)]

theorem lookup_error_object (jobId : String) (e : Emission) :
    (e.object parse jobId).lookup "error" = (match safeParseObject parse e.extraJson with
      | some parsed => mergeObject (header jobId e) parsed
      | none => header jobId e).lookup "error" := by
  rw [Emission.object, lookup_setField, if_neg (by decide)]
  rfl

theorem mem_of_lookup_error {jobId : String} {e : Emission} {value : Json}
    (found : (e.object parse jobId).lookup "error" = some value) :
    ∃ fields, parse e.extraJson = some (.object fields) ∧ ("error", value) ∈ fields := by
  have absent : (header jobId e).lookup "error" = none := rfl
  rw [lookup_error_object] at found
  cases parsed : safeParseObject parse e.extraJson with
  | none =>
      rw [parsed] at found
      cases absent.symm.trans found
  | some fields =>
      rw [parsed] at found
      refine ⟨fields, parse_of_safeParseObject parsed, ?_⟩
      rcases lookup_mergeObject_cases "error" (header jobId e) fields with kept | ⟨other, mem, merged⟩
      · cases absent.symm.trans (kept.symm.trans found)
      · obtain rfl : other = value := Option.some.inj (merged.symm.trans found)
        exact mem

theorem plain_of_lookup_error (standard : Standard parse) {jobId error : String}
    (found : ((failure error).object parse jobId).lookup "error" = some (.string error)) :
    Plain error.toList := by
  obtain ⟨fields, read, mem⟩ := mem_of_lookup_error found
  have quoted := standard.quoted _ fields "error" error read mem
  rw [failure, errorJson_eq, String.toList_ofList] at quoted
  exact plain_of_quoted (by decide) quoted

theorem lookup_error_of_plain (standard : Standard parse) (jobId : String) {error : String}
    (plain : Plain error.toList) :
    ((failure error).object parse jobId).lookup "error" = some (.string error) := by
  have read := standard.member "error" error (by decide) plain
  rw [← errorJson_eq] at read
  have some_text : (errorJson error).isEmpty = false := by
    rw [errorJson, Bool.eq_false_iff, ne_eq, String.isEmpty_iff]
    intro empty
    have chars := congrArg String.toList empty
    simp at chars
  have parsed : safeParseObject parse (failure error).extraJson = some [("error", .string error)] := by
    show (if (errorJson error).isEmpty then none else (parse (errorJson error)).bind Json.asObject?) = _
    rw [some_text, read]
    rfl
  rw [lookup_error_object, parsed]
  show (setField (header jobId (failure error)) "error" (.string error)).lookup "error" = _
  rw [lookup_setField, if_pos rfl]

theorem error_of_snapshot (jobId error : String) (obj : Fields) :
    ((failure error).snapshot jobId obj).error = getStr obj "error" := rfl

theorem plain_of_snapshot_error (standard : Standard parse) {jobId error : String}
    (carried : ((failure error).snapshot jobId ((failure error).object parse jobId)).error = error) :
    Plain error.toList := by
  rw [error_of_snapshot, getStr] at carried
  cases found : (((failure error).object parse jobId).lookup "error").bind Json.asString? with
  | none =>
      rw [found] at carried
      obtain rfl : error = "" := carried.symm
      decide
  | some text =>
      rw [found] at carried
      obtain rfl : text = error := carried
      obtain ⟨value, there, string⟩ := Option.bind_eq_some_iff.mp found
      cases value <;> cases string
      exact plain_of_lookup_error standard there

end Object

section Worker

variable {env : Env} {job : Job} {error : String} {i : Nat} {s s' : Shared} {p q : Pc} {r : Reply}

def afterFailure (job : Job) (error : String) : Pc := .checkGeneration job (.failed error "save")

inductive Behind (job : Job) (error : String) : Pc → Prop
  | emit : Behind job error (.emit job (failure error) (afterFailure job error))
  | updateState : Behind job error (.updateState job (failure error) (afterFailure job error))
  | broadcastEvent : Behind job error (.broadcastEvent job (failure error) (afterFailure job error))
  | checkGeneration : Behind job error (afterFailure job error)
  | finishRun : Behind job error (.finishRun job (.failed error "save"))
  | finishCheckpoint : Behind job error (.finishCheckpoint job (.failed error "save"))
  | finished : Behind job error .finished

theorem Behind.step (behind : Behind job error p) (stepped : (jobs env).step i s p r = some (s', q)) :
    Behind job error q := by
  cases behind with
  | emit =>
      obtain rfl : (if s.generation = job.generation then
          Pc.updateState job (failure error) (afterFailure job error)
        else afterFailure job error) = q := congrArg Prod.snd (Option.some.inj stepped)
      split
      · exact .updateState
      · exact .checkGeneration
  | updateState =>
      cases stepped
      exact .broadcastEvent
  | broadcastEvent =>
      cases stepped
      exact .checkGeneration
  | checkGeneration =>
      obtain rfl : (if s.generation = job.generation then Pc.finishRun job (.failed error "save")
        else .finished) = q := congrArg Prod.snd (Option.some.inj stepped)
      split
      · exact .finishRun
      · exact .finished
  | finishRun =>
      cases stepped
      exact .finishCheckpoint
  | finishCheckpoint =>
      cases stepped
      exact .finished
  | finished => cases stepped

theorem behind_of_reach {d d₁ : Config Shared Pc} (reach : Reach (jobs env) anyLabel d d₁)
    (at_i : d.procs[i]? = some (failWith job error "save")) :
    ∃ p, d₁.procs[i]? = some p ∧ Behind job error p := by
  refine reach.invariant (I := fun c => ∃ p, c.procs[i]? = some p ∧ Behind job error p)
    ⟨_, at_i, .emit⟩ ?_
  rintro c c' l ⟨p, at_p, behind⟩ - next
  rcases next_cases next with ⟨_, rfl, -, rfl⟩ | ⟨j, r, p', s, q, rfl, at_j, stepped, rfl⟩
  · exact ⟨p, getElem?_snoc_kept at_p, behind⟩
  · by_cases same : j = i
    · subst same
      obtain rfl : p = p' := Option.some.inj (at_p.symm.trans at_j)
      exact ⟨q, getElem?_set_here at_p, behind.step stepped⟩
    · exact ⟨p, (List.getElem?_set_ne same).trans at_p, behind⟩

theorem importRequest_fails {req : SnapshotRequest} (fails : saveError env s req r = some error)
    (stepped : (jobs env).step i s (.importRequest job req) r = some (s', q)) :
    s'.generation = s.generation ∧ q = failWith job error "save" := by
  have worked : workerStep env s (.importRequest job req) r = some (s', q) := by
    rcases jobs_step stepped with other | other | worked | other
    · cases other
    · cases other
    · exact worked
    · cases other
  unfold saveError at fails
  unfold workerStep at worked
  dsimp only at worked
  split at fails
  · rename_i ok
    rw [if_pos ok] at worked
    cases saved : (importSnapshot env.platform 1 req s.db).result.value with
    | some value =>
        simp [saved] at fails
    | none =>
        simp only [saved, Option.some.injEq, Prod.mk.injEq] at fails worked
        obtain ⟨rfl, rfl⟩ := worked
        exact ⟨rfl, by rw [fails]⟩
  · rename_i failed
    rw [if_neg failed] at worked
    cases worked
    cases fails
    exact ⟨rfl, rfl⟩

theorem carried_of_plain (standard : Standard env.parse) {d : Config Shared Pc}
    (at_i : d.procs[i]? = some (failWith job error "save")) (plain : Plain error.toList) :
    ErrorCarried env i d error := by
  constructor
  · intro d₁ d₂ job' e rest r reach at_update next
    obtain ⟨p, at_p, behind⟩ := behind_of_reach reach at_i
    obtain rfl : p = .updateState job' e rest := Option.some.inj (at_p.symm.trans at_update)
    cases behind
    obtain ⟨_, s, q, at_p', stepped, rfl⟩ := next_act next
    obtain rfl := Option.some.inj (at_p.symm.trans at_p')
    cases stepped
    refine ⟨_, rfl, ?_⟩
    rw [error_of_snapshot, getStr, lookup_error_of_plain standard job.jobId plain]
    rfl
  · intro d₁ d₂ job' e rest r reach at_broadcast next
    obtain ⟨p, at_p, behind⟩ := behind_of_reach reach at_i
    obtain rfl : p = .broadcastEvent job' e rest := Option.some.inj (at_p.symm.trans at_broadcast)
    cases behind
    obtain ⟨_, s, q, at_p', stepped, rfl⟩ := next_act next
    obtain rfl := Option.some.inj (at_p.symm.trans at_p')
    cases stepped
    exact ⟨_, rfl, lookup_error_of_plain standard job.jobId plain⟩

theorem plain_of_carried (standard : Standard env.parse) {d : Config Shared Pc}
    (at_i : d.procs[i]? = some (failWith job error "save"))
    (current : d.shared.generation = job.generation) (carried : ErrorCarried env i d error) :
    Plain error.toList := by
  have passes : (jobs env).next d (.act i {}) = some ⟨d.shared,
      d.procs.set i (.updateState job (failure error) (afterFailure job error))⟩ := by
    have stepped : (jobs env).step i d.shared (failWith job error "save") {} =
        some (d.shared, if d.shared.generation = job.generation then
          .updateState job (failure error) (afterFailure job error) else afterFailure job error) := rfl
    rw [if_pos current] at stepped
    simp only [Machine.next, at_i, stepped]
  have at_update := getElem?_set_here
    (q := Pc.updateState job (failure error) (afterFailure job error)) at_i
  have stores : (jobs env).next ⟨d.shared,
      d.procs.set i (.updateState job (failure error) (afterFailure job error))⟩ (.act i {}) =
      some ⟨{ d.shared with
          state := some ((failure error).snapshot job.jobId ((failure error).object env.parse job.jobId)) },
        (d.procs.set i (.updateState job (failure error) (afterFailure job error))).set i
          (.broadcastEvent job (failure error) (afterFailure job error))⟩ := by
    simp only [Machine.next, at_update]
    rfl
  obtain ⟨snap, stored, same⟩ := carried.stored _ _ _ _ _ _ (.step .refl trivial passes) at_update stores
  obtain rfl := Option.some.inj stored
  exact plain_of_snapshot_error standard same

end Worker

/-- The error of a failed import reaches the snapshot and the event of its worker exactly when nothing in
it needs an escape: it is put between quotes as it is, and what does not parse is left out. -/
theorem error_carried_iff (env : Env) (standard : Standard env.parse) (c d : Config Shared Pc) (i : Nat)
    (job : Job) (req : SnapshotRequest) (r : Reply) (error : String)
    (at_i : c.procs[i]? = some (.importRequest job req))
    (fails : saveError env c.shared req r = some error)
    (next : (jobs env).next c (.act i r) = some d)
    (current : c.shared.generation = job.generation) :
    ErrorCarried env i d error ↔ Plain error.toList := by
  obtain ⟨p, s, q, at_p, stepped, rfl⟩ := next_act next
  obtain rfl := Option.some.inj (at_i.symm.trans at_p)
  obtain ⟨same, rfl⟩ := importRequest_fails fails stepped
  have behind := getElem?_set_here (q := failWith job error "save") at_i
  exact ⟨plain_of_carried standard behind (same.trans current), carried_of_plain standard behind⟩

section Sample

/-- A parser of the objects with one plain string member. -/
def memberParser (text : String) : Option Json :=
  match text.toList with
  | '\x7b' :: '"' :: rest =>
      match rest.dropWhile (· ≠ '"') with
      | '"' :: ':' :: '"' :: tail =>
          let key := rest.takeWhile (· ≠ '"')
          let value := tail.takeWhile (· ≠ '"')
          if tail.dropWhile (· ≠ '"') = ['"', '\x7d'] ∧ Plain key ∧ Plain value then
            some (.object [(String.ofList key, .string (String.ofList value))])
          else none
      | _ => none
  | _ => none

theorem plain_not_quote {t : List Char} (plain : Plain t) : ∀ c ∈ t, decide (c ≠ '"') = true := by
  intro c mem
  rw [decide_eq_true_eq]
  rintro rfl
  exact absurd (plain _ mem) (by decide)

theorem memberParser_standard : Standard memberParser where
  quoted := by
    intro text fields key value read mem
    unfold memberParser at read
    split at read
    · rename_i rest chars
      split at read
      · rename_i tail behind_key
        dsimp only at read
        split at read
        · rename_i form
          obtain ⟨behind_value, -, plain⟩ := form
          cases read
          obtain ⟨-, string⟩ := Prod.ext_iff.mp (List.mem_singleton.mp mem)
          obtain rfl : value = String.ofList (tail.takeWhile (· ≠ '"')) := Json.string.inj string
          have whole := List.takeWhile_append_dropWhile (p := (· ≠ '"')) (l := rest)
          have whole' := List.takeWhile_append_dropWhile (p := (· ≠ '"')) (l := tail)
          rw [behind_key] at whole
          rw [behind_value] at whole'
          have parts : text.toList = '\x7b' :: '"' :: (rest.takeWhile (· ≠ '"') ++
              '"' :: ':' :: '"' :: (tail.takeWhile (· ≠ '"') ++ ['"', '\x7d'])) := by
            rw [whole', whole, chars]
          refine ⟨'\x7b' :: '"' :: (rest.takeWhile (· ≠ '"') ++ ['"', ':']), tail.takeWhile (· ≠ '"'),
            ['\x7d'], ?_, ?_⟩
          · rw [parts]
            simp
          · rw [String.toList_ofList]
            exact Literal.of_plain plain
        · cases read
      · cases read
    · cases read
  member := by
    intro key value plain_key plain_value
    rw [memberParser, String.toList_ofList, spliced]
    have stop (t : List Char) : ('"' :: t).dropWhile (· ≠ '"') = '"' :: t := rfl
    have stop' (t : List Char) : ('"' :: t).takeWhile (· ≠ '"') = [] := rfl
    simp only [List.dropWhile_append_of_pos (plain_not_quote plain_key), stop,
      List.takeWhile_append_of_pos (plain_not_quote plain_key), stop', List.append_nil,
      List.dropWhile_append_of_pos (plain_not_quote plain_value),
      List.takeWhile_append_of_pos (plain_not_quote plain_value), String.ofList_toList]
    exact if_pos ⟨trivial, plain_key, plain_value⟩

def importing : Config Shared Pc where
  shared := { generation := 1 }
  procs := [.importRequest { jobId := "1", generation := 1, query := {} } {
    batchId := "batch-1", measuredAt := "2026-09-23T15:08:23Z" }]

def quotedError : String := "ERROR:  relation \"inventory1c_stocks\" does not exist"

def memberEnv : Env := { sampleEnv with parse := memberParser }

/-- The quotes in an error of PostgreSQL end the text that they are spliced into: the error is lost. -/
theorem quoted_error_lost : ∃ d, saveError memberEnv importing.shared
      { batchId := "batch-1", measuredAt := "2026-09-23T15:08:23Z" }
      { dbOk := false, what := quotedError } = some quotedError ∧
    (jobs memberEnv).next importing (.act 0 { dbOk := false, what := quotedError }) = some d ∧
    ¬ ErrorCarried memberEnv 0 d quotedError := by
  refine ⟨_, rfl, rfl, fun carried => ?_⟩
  have plain : Plain quotedError.toList := plain_of_carried memberParser_standard rfl rfl carried
  revert plain
  decide +kernel

theorem error_carried_iff_timeout : ∃ d,
    (jobs memberEnv).next importing (.act 0 { dbOk := false, what := "timeout expired" }) = some d ∧
    ErrorCarried memberEnv 0 d "timeout expired" :=
  ⟨_, rfl, (error_carried_iff memberEnv memberParser_standard importing _ 0 _ _
    { dbOk := false, what := "timeout expired" } "timeout expired" rfl rfl rfl rfl).mpr (by decide +kernel)⟩

end Sample

end Scand.InventoryPull.SaveErrors
