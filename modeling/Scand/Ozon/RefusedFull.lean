/- path: Scand/Ozon/RefusedFull
   layer: results
   digest: What a call of trigger_ozon_full that is refused leaves of the checkpoint. -/

import Scand.Ozon.StopFlag

set_option autoImplicit false
set_option relaxedAutoImplicit false

namespace Scand.Ozon.RefusedFull

open Scand.Foundation.Interleaving
open Scand.Ozon.Exclusion (executing)
open Scand.Ozon.Service
open Scand.Ozon.StopFlag (run_places)

/-- A call from its first step on, with the replies that it gets and no step of another thread. -/
def callAlone (conf : Conf) (i : Nat) (c : Config Shared Pc) (replies : List Reply) :
    Option (Config Shared Pc) :=
  (service conf).run (fun _ _ => true) c (replies.map (.act i))

/-- Both copies of the checkpoint, that of the database and that in memory, are the same. -/
structure SameCheckpoint (s s' : Shared) : Prop where
  syncState : s'.syncState = s.syncState
  store : s'.store = s.store

def blankRow : SyncStateRow where
  lastCursor := ""
  lastPage := 0
  totalSynced := 0
  lastStatus := ""

/-- Nothing is lost by the reset: the statement fails, there is no row, or the row is blank already; and
nothing is kept in memory. -/
structure NothingToReset (s : Shared) (replies : List Reply) : Prop where
  row : (∃ r, replies[1]? = some r ∧ r.dbOk = false) ∨ ∀ row ∈ s.syncState, row = blankRow
  memory : s.store = none

def behindReset : Pc → Bool
  | .checkShutdown | .claimRunning | .clearStop | .startJob | .abandonOld _ | .insertJob _ | .submit
  | .releaseRefused | .readRefusedJob | .failRefusedJob _ | .returned _ => true
  | _ => false

section Steps

variable {conf : Conf} {i : Nat} {s s' : Shared} {pc pc' : Pc} {r : Reply}

theorem behind_step (stepped : (service conf).step i s pc r = some (s', pc'))
    (behind : behindReset pc = true) :
    SameCheckpoint s s' ∧ (behindReset pc' = true ∨ pc' = .queued) := by
  have not_run : runStep conf i s pc r = none := by
    cases pc <;> first | rfl | cases behind
  have not_control : controlStep s pc r = none := by
    cases pc <;> first | rfl | cases behind
  have trigger : triggerStep i s pc r = some (s', pc') := by
    rcases service_step stepped with trigger | run | control
    · exact trigger
    · rw [not_run] at run
      cases run
    · rw [not_control] at control
      cases control
  cases pc <;> try (cases behind; done)
  all_goals
    simp only [triggerStep, Option.some.injEq, Prod.mk.injEq, reduceCtorEq] at trigger
  case claimRunning =>
    split at trigger <;> cases trigger <;> exact ⟨⟨rfl, rfl⟩, Or.inl rfl⟩
  case submit =>
    split at trigger <;> cases trigger
    · exact ⟨⟨rfl, rfl⟩, Or.inr rfl⟩
    · exact ⟨⟨rfl, rfl⟩, Or.inl rfl⟩
  all_goals
    obtain ⟨rfl, rfl⟩ := trigger
    refine ⟨⟨rfl, rfl⟩, Or.inl ?_⟩
    first
      | rfl
      | (split <;> rfl)

theorem executing_step (stepped : (service conf).step i s pc r = some (s', pc'))
    (runs : executing pc = true ∨ pc = .finished) : executing pc' = true ∨ pc' = .finished := by
  rcases runs with runs | rfl
  · have not_trigger : triggerStep i s pc r = none := by
      cases pc <;> first | rfl | cases runs
    have not_control : controlStep s pc r = none := by
      cases pc <;> first | rfl | cases runs
    rcases service_step stepped with trigger | run | control
    · rw [not_trigger] at trigger
      cases trigger
    · exact (run_places run).2.1
    · rw [not_control] at control
      cases control
  · cases stepped

end Steps

section Calls

variable {conf : Conf} {i : Nat} {c d : Config Shared Pc} {pc : Pc} {r : Reply}
  {replies : List Reply}

theorem callAlone_cons (called : c.procs[i]? = some pc)
    (alone : callAlone conf i c (r :: replies) = some d) :
    ∃ s' pc', (service conf).step i c.shared pc r = some (s', pc') ∧
      (c.procs.set i pc')[i]? = some pc' ∧
      callAlone conf i ⟨s', c.procs.set i pc'⟩ replies = some d := by
  simp only [callAlone, List.map_cons, Machine.run, if_true] at alone
  obtain ⟨e, next, rest⟩ := Option.bind_eq_some_iff.mp alone
  obtain ⟨p, s', pc', at_i, stepped, rfl⟩ := next_act next
  obtain rfl := Option.some.inj (called.symm.trans at_i)
  exact ⟨s', pc', stepped, List.getElem?_set_self (List.getElem?_eq_some_iff.mp called).1, rest⟩

theorem callAlone_nil (alone : callAlone conf i c [] = some d) : d = c := by
  cases alone
  rfl

theorem executing_alone (called : c.procs[i]? = some pc)
    (runs : executing pc = true ∨ pc = .finished) (alone : callAlone conf i c replies = some d) :
    ∃ pc', d.procs[i]? = some pc' ∧ (executing pc' = true ∨ pc' = .finished) := by
  induction replies generalizing c pc with
  | nil =>
      obtain rfl := callAlone_nil alone
      exact ⟨pc, called, runs⟩
  | cons r replies ih =>
      obtain ⟨s', pc', stepped, called', rest⟩ := callAlone_cons called alone
      exact ih called' (executing_step stepped runs) rest

theorem behind_alone (called : c.procs[i]? = some pc) (behind : behindReset pc = true)
    (alone : callAlone conf i c replies = some d)
    (refused : d.procs[i]? = some (.returned false)) : SameCheckpoint c.shared d.shared := by
  induction replies generalizing c pc with
  | nil =>
      obtain rfl := callAlone_nil alone
      exact ⟨rfl, rfl⟩
  | cons r replies ih =>
      obtain ⟨s', pc', stepped, called', rest⟩ := callAlone_cons called alone
      obtain ⟨same, behind' | rfl⟩ := behind_step stepped behind
      · have later := ih called' behind' rest
        exact ⟨later.syncState.trans same.syncState, later.store.trans same.store⟩
      · obtain ⟨pc', at_i, runs⟩ := executing_alone called' (Or.inl rfl) rest
        rw [refused] at at_i
        obtain rfl := Option.some.inj at_i
        rcases runs with runs | ends
        · cases runs
        · cases ends

theorem refused_after_reset (called : c.procs[i]? = some .fullCheckShutdown)
    (goes : c.shared.shuttingDown = false) (alone : callAlone conf i c replies = some d)
    (refused : d.procs[i]? = some (.returned false)) :
    ∃ r, replies[1]? = some r ∧
      d.shared.syncState = (resetCheckpoint c.shared r.dbOk).syncState ∧ d.shared.store = none := by
  have unfinished : ∀ {e : Config Shared Pc} {pc : Pc}, e.procs[i]? = some pc →
      pc ≠ .returned false → ∀ {rs}, callAlone conf i e rs = some d → ∃ r rest, rs = r :: rest := by
    intro e pc at_i other rs run
    cases rs with
    | nil =>
        obtain rfl := callAlone_nil run
        rw [at_i] at refused
        exact absurd (Option.some.inj refused) other
    | cons r rest => exact ⟨r, rest, rfl⟩
  obtain ⟨r₀, rest₀, rfl⟩ := unfinished called (by simp) alone
  obtain ⟨s₁, pc₁, checked, called, alone⟩ := callAlone_cons called alone
  have checks : some (c.shared, if c.shared.shuttingDown then Pc.returned false
      else .fullResetCheckpoint) = some (s₁, pc₁) := checked
  rw [goes] at checks
  cases checks
  obtain ⟨r₁, rest₁, rfl⟩ := unfinished called (by simp) alone
  obtain ⟨s₂, pc₂, reset, called, alone⟩ := callAlone_cons called alone
  have resets : some (resetCheckpoint c.shared r₁.dbOk, Pc.fullRemoveStored) = some (s₂, pc₂) :=
    reset
  cases resets
  obtain ⟨r₂, rest₂, rfl⟩ := unfinished called (by simp) alone
  obtain ⟨s₃, pc₃, removed, called, alone⟩ := callAlone_cons called alone
  have removes : some ({ resetCheckpoint c.shared r₁.dbOk with store := none }, Pc.checkShutdown) =
      some (s₃, pc₃) := removed
  cases removes
  have kept := behind_alone called rfl alone refused
  exact ⟨r₁, rfl, kept.syncState, kept.store⟩

theorem refused_by_shutdown (called : c.procs[i]? = some .fullCheckShutdown)
    (shuts : c.shared.shuttingDown = true) (alone : callAlone conf i c replies = some d) :
    SameCheckpoint c.shared d.shared := by
  cases replies with
  | nil =>
      obtain rfl := callAlone_nil alone
      exact ⟨rfl, rfl⟩
  | cons r rest =>
      obtain ⟨s₁, pc₁, checked, called, alone⟩ := callAlone_cons called alone
      have checks : some (c.shared, if c.shared.shuttingDown then Pc.returned false
          else .fullResetCheckpoint) = some (s₁, pc₁) := checked
      rw [shuts] at checks
      cases checks
      cases rest with
      | nil =>
          obtain rfl := callAlone_nil alone
          exact ⟨rfl, rfl⟩
      | cons r rest =>
          obtain ⟨s₂, pc₂, further, -⟩ := callAlone_cons called alone
          cases further

end Calls

theorem reset_keeps_iff (s : Shared) (dbOk : Bool) :
    (resetCheckpoint s dbOk).syncState = s.syncState ↔
      dbOk = false ∨ ∀ row ∈ s.syncState, row = blankRow := by
  unfold resetCheckpoint
  cases dbOk with
  | false => simp
  | true =>
      cases h : s.syncState with
      | none => simp
      | some row =>
          have blank : (some blankRow = some row) ↔ row = blankRow :=
            ⟨fun same => (Option.some.inj same).symm, fun same => congrArg some same.symm⟩
          simpa [blankRow] using blank

/-- A refused full sync leaves the checkpoint as it was exactly when the service was shutting down
already, or there was nothing to lose. -/
theorem refused_full_keeps_iff (conf : Conf) (c d : Config Shared Pc) (i : Nat)
    (replies : List Reply) (called : c.procs[i]? = some .fullCheckShutdown)
    (alone : callAlone conf i c replies = some d)
    (refused : d.procs[i]? = some (.returned false)) :
    SameCheckpoint c.shared d.shared ↔
      c.shared.shuttingDown = true ∨ NothingToReset c.shared replies := by
  cases shuts : c.shared.shuttingDown with
  | true =>
      have same := refused_by_shutdown called shuts alone
      exact ⟨fun _ => Or.inl rfl, fun _ => same⟩
  | false =>
      obtain ⟨r, replied, row, memory⟩ := refused_after_reset called shuts alone refused
      have row_iff := reset_keeps_iff c.shared r.dbOk
      rw [← row] at row_iff
      constructor
      · intro same
        refine Or.inr ⟨?_, same.store.symm.trans memory⟩
        exact (row_iff.mp same.syncState).imp_left fun failed => ⟨r, replied, failed⟩
      · rintro (shut | nothing)
        · cases shut
        · refine ⟨row_iff.mpr ?_, memory.trans nothing.memory.symm⟩
          refine nothing.row.imp_left ?_
          rintro ⟨r', replied', failed⟩
          obtain rfl := Option.some.inj (replied.symm.trans replied')
          exact failed

section Example

def running : Shared where
  ozonRunning := true
  store := some { lastCursor := "c7", lastPage := 7, totalSynced := 700, lastStatus := "running" }
  syncState := some {
    lastCursor := "c7", lastPage := 7, totalSynced := 700, lastStatus := "running" }

def asked (s : Shared) : Config Shared Pc := ⟨s, [.fullCheckShutdown]⟩

theorem refused_full_loses : ∃ d, callAlone { pageSize := 100 } 0 (asked running)
      [{}, {}, {}, {}, {}] = some d ∧ d.procs[0]? = some (.returned false) ∧
    ¬ SameCheckpoint (asked running).shared d.shared := by
  refine ⟨⟨{ running with store := none, syncState := some blankRow }, [.returned false]⟩, rfl, rfl, ?_⟩
  intro same
  cases same.store

def stopping : Shared := { running with shuttingDown := true }

theorem refused_full_keeps_stopping : ∃ d, callAlone { pageSize := 100 } 0 (asked stopping) [{}] =
      some d ∧ d.procs[0]? = some (.returned false) ∧ SameCheckpoint stopping d.shared ∧
    d.shared.syncState.map SyncStateRow.lastCursor = some "c7" :=
  ⟨⟨stopping, [.returned false]⟩, rfl, rfl,
    (refused_full_keeps_iff { pageSize := 100 } (asked stopping) ⟨stopping, [.returned false]⟩ 0 [{}]
      rfl rfl rfl).mpr (Or.inl rfl), rfl⟩

end Example

end Scand.Ozon.RefusedFull
