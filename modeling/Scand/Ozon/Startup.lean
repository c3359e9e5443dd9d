/- path: Scand/Ozon/Startup
   layer: code model
   digest: The start of the service: what a restart keeps, the runs that it marks as interrupted,
   has_unfinished_ozon_sync and resume_on_start, next to the calls that may already come in. -/

import Scand.Foundation.Restarts
import Scand.Ozon.Exclusion

set_option autoImplicit false
set_option relaxedAutoImplicit false

namespace Scand.Ozon.Startup

open Scand.Foundation.Interleaving (Config Machine)
open Scand.Ozon.Service
open Scand.Store

/-- The tables are what a restart keeps. -/
def rebooted (s : Shared) : Shared where
  syncState := s.syncState
  products := s.products
  syncRuns := s.syncRuns

def hasUnfinishedOzonSync (s : Shared) (dbOk : Bool) : Bool :=
  let cp := loadCheckpoint s dbOk
  if cp.lastCursor = "" ∧ cp.totalSynced = 0 then false
  else if cp.lastStatus = "done" then false
  else if cp.lastStatus = "stopped" then false
  else if cp.totalExpected > 0 ∧ cp.totalSynced ≥ cp.totalExpected then false
  else true

/-- Where a call stands, the start of the service, or the trigger that `resume_on_start` made. -/
inductive Place
  | call (pc : Pc)
  -- main: the runs that the restart has interrupted, before it serves
  | markPulls | markOzon
  | resumeOnStart | checkUnfinished
  | resumed (pc : Pc)
  deriving DecidableEq

def Place.pc? : Place → Option Pc
  | .call pc | .resumed pc => some pc
  | .markPulls | .markOzon | .resumeOnStart | .checkUnfinished => none

def markInterrupted (s : Shared) (dbOk : Bool) (source : String) : Shared :=
  updateRuns s dbOk (SyncRuns.markInterrupted 1 source "service restarted")

/-- The service with its start; the calls may come as soon as its threads run. -/
def starting (conf : Conf) : Machine Shared Place Reply where
  entry
    | .call pc => isCall pc
    | _ => false
  step i s place r :=
    match place with
    | .call pc => ((service conf).step i s pc r).map fun next => (next.1, .call next.2)
    | .resumed pc => ((service conf).step i s pc r).map fun next => (next.1, .resumed next.2)
    -- an exception leaves the statements after it out
    | .markPulls =>
        some (markInterrupted s r.dbOk "inventory_pull",
          if r.dbOk then .markOzon else .resumeOnStart)
    | .markOzon => some (markInterrupted s r.dbOk "ozon", .resumeOnStart)
    | .resumeOnStart =>
        some (s, if s.shuttingDown then .call (.returned false) else .checkUnfinished)
    | .checkUnfinished =>
        some (s, if hasUnfinishedOzonSync s r.dbOk then .resumed .checkShutdown
          else .call (.returned false))

variable {conf : Conf} {i : Nat} {s s' : Shared} {p q : Place} {r : Reply}

/-- A step of the starting service is one of a call, or one of the start, which writes the run history
alone. -/
theorem starting_step (stepped : (starting conf).step i s p r = some (s', q)) :
    (∃ pc pc', (service conf).step i s pc r = some (s', pc') ∧
      (p = .call pc ∧ q = .call pc' ∨ p = .resumed pc ∧ q = .resumed pc')) ∨
    ((∃ runs, s' = { s with syncRuns := runs }) ∧ p.pc? = none ∧
      (q.pc? = none ∨ q = .call (.returned false) ∨
        q = .resumed .checkShutdown ∧ hasUnfinishedOzonSync s r.dbOk = true)) := by
  cases p with
  | call pc =>
      obtain ⟨next, inner, same⟩ := Option.map_eq_some_iff.mp stepped
      cases same
      exact Or.inl ⟨pc, next.2, inner, Or.inl ⟨rfl, rfl⟩⟩
  | resumed pc =>
      obtain ⟨next, inner, same⟩ := Option.map_eq_some_iff.mp stepped
      cases same
      exact Or.inl ⟨pc, next.2, inner, Or.inr ⟨rfl, rfl⟩⟩
  | markPulls =>
      obtain ⟨rfl, rfl⟩ := Prod.mk.inj (Option.some.inj stepped)
      refine Or.inr ⟨⟨_, rfl⟩, rfl, Or.inl ?_⟩
      split <;> rfl
  | markOzon =>
      obtain ⟨rfl, rfl⟩ := Prod.mk.inj (Option.some.inj stepped)
      exact Or.inr ⟨⟨_, rfl⟩, rfl, Or.inl rfl⟩
  | resumeOnStart =>
      obtain ⟨rfl, rfl⟩ := Prod.mk.inj (Option.some.inj stepped)
      refine Or.inr ⟨⟨s.syncRuns, rfl⟩, rfl, ?_⟩
      split
      · exact Or.inr (Or.inl rfl)
      · exact Or.inl rfl
  | checkUnfinished =>
      obtain ⟨rfl, rfl⟩ := Prod.mk.inj (Option.some.inj stepped)
      refine Or.inr ⟨⟨s.syncRuns, rfl⟩, rfl, Or.inr ?_⟩
      split
      · rename_i found
        exact Or.inr ⟨rfl, found⟩
      · exact Or.inl rfl

theorem starting_places (stepped : (starting conf).step i s p r = some (s', q)) :
    (∃ pc pc', (service conf).step i s pc r = some (s', pc') ∧ p.pc? = some pc ∧
      q.pc? = some pc') ∨
    ((∃ runs, s' = { s with syncRuns := runs }) ∧ p.pc? = none ∧
      ∀ pc ∈ q.pc?, pc = .returned false ∨ pc = .checkShutdown) := by
  rcases starting_step stepped with ⟨pc, pc', moved, places⟩ | ⟨same, outside, places⟩
  · refine Or.inl ⟨pc, pc', moved, ?_⟩
    rcases places with ⟨rfl, rfl⟩ | ⟨rfl, rfl⟩ <;> exact ⟨rfl, rfl⟩
  · refine Or.inr ⟨same, outside, fun pc here => ?_⟩
    rcases places with none_yet | rfl | ⟨rfl, -⟩
    · rw [none_yet] at here
      cases here
    · cases here
      exact Or.inl rfl
    · cases here
      exact Or.inr rfl

end Scand.Ozon.Startup
