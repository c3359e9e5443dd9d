/- path: Scand/Foundation/RowLog
   layer: library
   digest: A table to which rows are appended and whose rows are changed in place: each row is what the
   statements after its insert made of it. -/

import Mathlib.Data.List.Basic

set_option autoImplicit false
set_option relaxedAutoImplicit false

namespace Scand.Foundation.RowLog

variable {ρ : Type}

inductive Statement (ρ : Type)
  | insert (row : ρ)
  | update (change : ρ → ρ)

def Statement.run (rows : List ρ) : Statement ρ → List ρ
  | .insert row => rows ++ [row]
  | .update change => rows.map change

/-- The table after a log of statements. -/
def replay (log : List (Statement ρ)) : List ρ := log.foldl Statement.run []

def Statement.alter (row : ρ) : Statement ρ → ρ
  | .insert _ => row
  | .update change => change row

def advance (row : ρ) (log : List (Statement ρ)) : ρ := log.foldl Statement.alter row

def starts : List (Statement ρ) → List (ρ × List (Statement ρ))
  | [] => []
  | .insert row :: later => (row, later) :: starts later
  | .update _ :: later => starts later

private theorem foldl_run (log : List (Statement ρ)) (rows : List ρ) :
    log.foldl Statement.run rows =
      rows.map (advance · log) ++ (starts log).map fun start => advance start.1 start.2 := by
  induction log generalizing rows with
  | nil => simp [advance, starts]
  | cons statement later ih =>
      rw [List.foldl_cons, ih]
      cases statement with
      | insert row =>
          rw [Statement.run, List.map_append, List.append_assoc]
          rfl
      | update change =>
          rw [Statement.run, List.map_map]
          rfl

theorem replay_eq_starts (log : List (Statement ρ)) :
    replay log = (starts log).map fun start => advance start.1 start.2 :=
  foldl_run log []

theorem later_suffix {log : List (Statement ρ)} {start : ρ × List (Statement ρ)}
    (mem : start ∈ starts log) : start.2 <:+ log := by
  induction log with
  | nil => cases mem
  | cons statement later ih =>
      cases statement with
      | insert row =>
          rcases List.mem_cons.mp mem with same | mem
          · rw [same]
            exact List.suffix_cons _ _
          · exact (ih mem).trans (List.suffix_cons _ _)
      | update change => exact (ih mem).trans (List.suffix_cons _ _)

section Selected

variable {p : ρ → Bool} {log : List (Statement ρ)}

/-- No statement of the log moves a row into or out of the selection. -/
def Fixes (p : ρ → Bool) (log : List (Statement ρ)) : Prop :=
  ∀ statement ∈ log, ∀ row, p (statement.alter row) = p row

theorem Fixes.suffix {later : List (Statement ρ)} (fixes : Fixes p log) (within : later <:+ log) :
    Fixes p later :=
  fun statement mem => fixes statement (within.subset mem)

theorem Fixes.advance (fixes : Fixes p log) (row : ρ) : p (advance row log) = p row := by
  induction log generalizing row with
  | nil => rfl
  | cons statement later ih =>
      rw [RowLog.advance, List.foldl_cons, ← RowLog.advance, ih (fixes.suffix (List.suffix_cons _ _)),
        fixes statement List.mem_cons_self]

theorem filter_replay (fixes : Fixes p log) :
    (replay log).filter p =
      ((starts log).filter fun start => p start.1).map fun start => advance start.1 start.2 := by
  rw [replay_eq_starts, List.filter_map]
  congr 1
  apply List.filter_congr
  intro start mem
  exact (fixes.suffix (later_suffix mem)).advance start.1

end Selected

end Scand.Foundation.RowLog
