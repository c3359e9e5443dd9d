/- path: Scand/InventoryPull/Events
   layer: code model
   digest: The events of an inventory pull: their JSON objects, the percent of a stage, and the
   snapshot that the status endpoint shows. -/

import Scand.Foundation.JsonValue
import Mathlib.Data.Rat.Floor

set_option autoImplicit false
set_option relaxedAutoImplicit false

namespace Scand.InventoryPull.Events

open Scand.Foundation.JsonValue

abbrev Stages := List (String × String)

structure InventorySnapshot where
  jobId : String := ""
  stage : String := ""
  status : String := ""
  current : Int := 0
  total : Int := 0
  percent : Int := 0
  accepted : Int := 0
  migrated : Int := 0
  conflicts : Int := 0
  warehouses : Int := 0
  stocks : Int := 0
  costs : Int := 0
  stocksAccepted : Int := 0
  costsAccepted : Int := 0
  error : String := ""
  measuredAt : String := ""
  stages : Stages := []
  deriving DecidableEq

def stageOrder : List String := ["catalog", "ka2_pull", "save", "done"]

def startNew (jobId : String) : InventorySnapshot where
  jobId := jobId
  stage := "start"
  status := "running"
  stages := stageOrder.map fun stage => (stage, "pending")

/-- The stages of the catalogue pull count as `catalog`. -/
def stageKey (stage : String) : String :=
  if stage = "read" ∨ stage = "normalize" ∨ stage = "migrate" ∨ stage = "start" then "catalog"
  else stage

def toInt64 (i : Int) : Int := Int.bmod i (2 ^ 64)

/-- `get_i64`: also of a decimal text. -/
def getI64 (obj : Fields) (key : String) (fallback : Int) : Int :=
  match obj.lookup key with
  | some (.int64 i) => i
  | some (.uint64 n) => toInt64 n
  | some (.string s) => (stoll s).getD fallback
  | _ => fallback

def getStr (obj : Fields) (key : String) : String :=
  ((obj.lookup key).bind Json.asString?).getD ""

def addMissing (stages : Stages) : Stages :=
  stageOrder.foldl (fun m stage => if m.any (·.1 = stage) then m else m ++ [(stage, "pending")])
    stages

def failStages (key : String) (stages : Stages) : Stages :=
  stages.map fun (stage, state) =>
    (stage, if stage = key ∨ state = "running" then "failed" else state)

def runStage (key : String) (found : Bool) (stage state : String) : String :=
  if stage = key then "running"
  else if !found then "done"
  else if state = "running" then "pending"
  else state

def setState (stages : Stages) (stage : String) (change : String → String) : Stages :=
  stages.map fun (other, state) => (other, if other = stage then change state else state)

/-- The loop over the stages in their order: those before the running one are done. -/
def runStages (key : String) : List String → Bool → Stages → Stages
  | [], _, stages => stages
  | stage :: rest, found, stages =>
      runStages key rest (found || stage = key) (setState stages stage (runStage key found stage))

def fillInventorySnapshot (jobId stage status : String) (obj : Fields) (out : InventorySnapshot) :
    InventorySnapshot :=
  let filled : InventorySnapshot := {
    jobId := jobId
    stage := stage
    status := status
    current := getI64 obj "current" out.current
    total := getI64 obj "total" out.total
    percent := getI64 obj "percent" out.percent
    accepted := getI64 obj "accepted" out.accepted
    migrated := getI64 obj "migrated" out.migrated
    conflicts := getI64 obj "conflicts" out.conflicts
    warehouses := getI64 obj "warehouses" out.warehouses
    stocks := getI64 obj "stocks" out.stocks
    costs := getI64 obj "costs" out.costs
    stocksAccepted := getI64 obj "stocks_accepted" out.stocksAccepted
    costsAccepted := getI64 obj "costs_accepted" out.costsAccepted
    error := getStr obj "error"
    measuredAt := getStr obj "measured_at"
    stages := addMissing out.stages }
  if status = "failed" ∨ stage = "error" then
    { filled with stages := failStages (stageKey stage) filled.stages }
  else if status = "done" ∨ status = "imported" ∨ stage = "done" then
    { filled with
      stages := filled.stages.map fun (stage, _) => (stage, "done")
      percent := 100 }
  else { filled with stages := runStages (stageKey stage) stageOrder false filled.stages }

/-- `compute_percent`, with the quotient of `current` and `total` taken exactly. -/
def computePercent (stage status : String) (current total : Int) : Int :=
  if status = "done" ∨ status = "imported" ∨ stage = "done" then 100
  else
    match stageOrder.idxOf? (stageKey stage) with
    | none => 0
    | some idx =>
        let base : Int := idx * 25
        let pct :=
          if total > 0 then
            let frac : ℚ := max 0 (min 1 ((current : ℚ) / total))
            base + ⌊frac * 25⌋
          else if status = "running" then base + 12
          else base
        min pct 99

/-- `safe_parse_object`, over a parser that may throw. -/
def safeParseObject (parse : String → Option Json) (s : String) : Option Fields :=
  if s.isEmpty then none else (parse s).bind Json.asObject?

theorem parse_of_safeParseObject {parse : String → Option Json} {s : String} {obj : Fields}
    (parsed : safeParseObject parse s = some obj) : parse s = some (.object obj) := by
  unfold safeParseObject at parsed
  split at parsed
  · cases parsed
  · obtain ⟨value, read, same⟩ := Option.bind_eq_some_iff.mp parsed
    cases value <;> cases same
    exact read

def mergeObject (dst src : Fields) : Fields :=
  src.foldl (fun o field => setField o field.1 field.2) dst

def countField (obj : Fields) (key : String) : Int :=
  match obj.lookup key with
  | some (.int64 i) => i
  | some (.uint64 n) => toInt64 n
  | _ => 0

/-- An event as its emitter states it, with the text of its further fields. -/
structure Emission where
  stage : String
  status : String
  extraJson : String := ""

def Emission.object (parse : String → Option Json) (jobId : String) (e : Emission) : Fields :=
  let obj : Fields := [("job_id", .string jobId), ("stage", .string e.stage),
    ("status", .string e.status)]
  let obj := match safeParseObject parse e.extraJson with
    | some parsed => mergeObject obj parsed
    | none => obj
  let percent := computePercent e.stage e.status (countField obj "current") (countField obj "total")
  setField obj "percent" (.int64 percent)

/-- The snapshot that `emit` stores: filled from an empty one. -/
def Emission.snapshot (jobId : String) (e : Emission) (obj : Fields) : InventorySnapshot :=
  { fillInventorySnapshot jobId e.stage e.status obj {} with percent := countField obj "percent" }

/-- The event of the two handlers that catch an exception of the worker. -/
def failureObject (jobId error : String) : Fields :=
  [("job_id", .string jobId), ("stage", .string "error"), ("status", .string "failed"),
    ("error", .string error), ("percent", .int64 0)]

/-- The snapshot of that event: every stage that is not done failed. -/
def failureSnapshot (jobId error : String) : InventorySnapshot :=
  let snap := fillInventorySnapshot jobId "error" "failed" (failureObject jobId error) {}
  { snap with
    percent := 0
    stages := snap.stages.map fun (stage, state) =>
      (stage, if state ≠ "done" then "failed" else state) }

section Texts

/-- The members of an object with whole numbers, spliced as the worker does it. -/
def numberMembers (fields : List (String × Nat)) : String :=
  ",".intercalate (fields.map fun (key, n) => "\"" ++ key ++ "\":" ++ toString n)

def numbersJson (fields : List (String × Nat)) : String :=
  "\x7b" ++ numberMembers fields ++ "\x7d"

/-- The text of an object with an error, spliced without escaping. -/
def errorJson (error : String) : String := "\x7b\"error\":\"" ++ error ++ "\"\x7d"

end Texts

end Scand.InventoryPull.Events
