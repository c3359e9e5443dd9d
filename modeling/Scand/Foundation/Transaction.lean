/- path: Scand/Foundation/Transaction
   layer: library
   digest: Statements within one transaction: a refused statement fails the transaction, which then
   refuses every further one and can only be rolled back. -/

import Mathlib.Logic.Basic

set_option autoImplicit false
set_option relaxedAutoImplicit false

namespace Scand.Foundation.Transaction

/-- A transaction: what a rollback restores, what its statements see, and whether one was refused. -/
structure Tx (σ : Type) where
  start : σ
  now : σ
  failed : Bool

inductive Refusal (ε : Type)
  | refused (e : ε)
  | inFailedTransaction

def Work (σ ε α : Type) := Tx σ → Except (Refusal ε) α × Tx σ

variable {σ ε α β : Type}

namespace Tx

def opened (s : σ) : Tx σ := ⟨s, s, false⟩

def commit (tx : Tx σ) : Option σ := if tx.failed then none else some tx.now

def settled (tx : Tx σ) : σ := tx.commit.getD tx.start

theorem commit_failed {tx : Tx σ} (failed : tx.failed = true) : tx.commit = none :=
  if_pos failed

theorem commit_ok {tx : Tx σ} (sound : tx.failed = false) : tx.commit = some tx.now := by
  simp [commit, sound]

end Tx

namespace Work

protected def pure (a : α) : Work σ ε α := fun tx => (.ok a, tx)

protected def bind (x : Work σ ε α) (f : α → Work σ ε β) : Work σ ε β := fun tx =>
  match x tx with
  | (.error e, tx) => (.error e, tx)
  | (.ok a, tx) => f a tx

instance : Monad (Work σ ε) where
  pure := Work.pure
  bind := Work.bind

def exec (statement : σ → Except ε (σ × α)) : Work σ ε α := fun tx =>
  if tx.failed then (.error .inFailedTransaction, tx)
  else
    match statement tx.now with
    | .error e => (.error (.refused e), { tx with failed := true })
    | .ok (s, a) => (.ok a, { tx with now := s })

/-- A handler in the client: the transaction stays as it is. -/
def recover (handled : ε → Bool) (value : α) (x : Work σ ε α) : Work σ ε α := fun tx =>
  match x tx with
  | (.error (.refused e), tx) => (if handled e then .ok value else .error (.refused e), tx)
  | other => other

theorem pure_run (a : α) (tx : Tx σ) : (pure a : Work σ ε α) tx = (.ok a, tx) := rfl

theorem bind_ok {x : Work σ ε α} {f : α → Work σ ε β} {tx tx' : Tx σ} {a : α}
    (first : x tx = (.ok a, tx')) : (x >>= f) tx = f a tx' := by
  change Work.bind x f tx = _
  simp only [Work.bind, first]

theorem bind_error {x : Work σ ε α} {f : α → Work σ ε β} {tx tx' : Tx σ} {e : Refusal ε}
    (first : x tx = (.error e, tx')) : (x >>= f) tx = (.error e, tx') := by
  change Work.bind x f tx = _
  simp only [Work.bind, first]

section Exec

variable {statement : σ → Except ε (σ × α)} {tx : Tx σ}

theorem exec_ok {s : σ} {a : α} (sound : tx.failed = false) (accepted : statement tx.now = .ok (s, a)) :
    exec statement tx = (.ok a, { tx with now := s }) := by
  simp [exec, sound, accepted]

theorem exec_refused {e : ε} (sound : tx.failed = false) (refused : statement tx.now = .error e) :
    exec statement tx = (.error (.refused e), { tx with failed := true }) := by
  simp [exec, sound, refused]

theorem exec_failed (failed : tx.failed = true) :
    exec statement tx = (.error .inFailedTransaction, tx) := by
  simp [exec, failed]

end Exec

theorem recover_ok {handled : ε → Bool} {value a : α} {x : Work σ ε α} {tx tx' : Tx σ}
    (done : x tx = (.ok a, tx')) : recover handled value x tx = (.ok a, tx') := by
  simp only [recover, done]

section RecoverExec

variable {statement : σ → Except ε (σ × α)} {handled : ε → Bool} {value : α} {tx : Tx σ}

theorem recover_exec_refused {e : ε} (sound : tx.failed = false)
    (refused : statement tx.now = .error e) (caught : handled e = true) :
    recover handled value (exec statement) tx = (.ok value, { tx with failed := true }) := by
  simp [recover, exec_refused sound refused, caught]

theorem recover_exec_failed (failed : tx.failed = true) :
    recover handled value (exec statement) tx = (.error .inFailedTransaction, tx) := by
  simp [recover, exec_failed failed]

end RecoverExec

/-- A program that cannot repair its transaction. -/
structure Sound (x : Work σ ε α) : Prop where
  start : ∀ tx, (x tx).2.start = tx.start
  failed : ∀ tx : Tx σ, tx.failed = true → (x tx).2.failed = true

theorem sound_pure (a : α) : Sound (pure a : Work σ ε α) := ⟨fun _ => rfl, fun _ failed => failed⟩

theorem sound_exec (statement : σ → Except ε (σ × α)) : Sound (exec statement) := by
  constructor
  · intro tx
    unfold exec
    split
    · rfl
    · split <;> rfl
  · intro tx failed
    rw [exec_failed failed]
    exact failed

theorem Sound.bind {x : Work σ ε α} {f : α → Work σ ε β} (first : Sound x)
    (second : ∀ a, Sound (f a)) : Sound (x >>= f) := by
  constructor
  · intro tx
    cases ran : x tx with
    | mk outcome tx' =>
        have kept : tx'.start = tx.start := by simpa [ran] using first.start tx
        cases outcome with
        | error e => rw [bind_error ran, kept]
        | ok a => rw [bind_ok ran, (second a).start, kept]
  · intro tx failed
    cases ran : x tx with
    | mk outcome tx' =>
        have still : tx'.failed = true := by simpa [ran] using first.failed tx failed
        cases outcome with
        | error e => rw [bind_error ran, still]
        | ok a => rw [bind_ok ran, (second a).failed tx' still]

theorem recover_snd (handled : ε → Bool) (value : α) (x : Work σ ε α) (tx : Tx σ) :
    (recover handled value x tx).2 = (x tx).2 := by
  unfold recover
  split
  · rename_i e tx' ran
    rw [ran]
  · rfl

theorem Sound.recover {x : Work σ ε α} (sound : Sound x) (handled : ε → Bool) (value : α) :
    Sound (recover handled value x) := by
  constructor
  · intro tx
    rw [recover_snd, sound.start]
  · intro tx failed
    rw [recover_snd, sound.failed tx failed]

/-- The program ends with this value and state, and no statement was refused on the way. -/
def Runs (x : Work σ ε α) (tx : Tx σ) (a : α) (s : σ) : Prop :=
  tx.failed = false ∧ x tx = (.ok a, { tx with now := s })

section Runs

variable {x : Work σ ε α} {tx : Tx σ} {a : α} {s : σ}

/-- What a program that cannot repair its transaction leaves for a commit. -/
theorem Sound.runs_iff (sound : Sound x) :
    Runs x tx a s ↔ (x tx).1 = .ok a ∧ (x tx).2.commit = some s := by
  constructor
  · rintro ⟨fine, ran⟩
    rw [ran]
    exact ⟨rfl, Tx.commit_ok fine⟩
  · rintro ⟨value, stored⟩
    have fine : (x tx).2.failed = false := by
      cases failed : (x tx).2.failed with
      | false => rfl
      | true =>
          rw [Tx.commit_failed failed] at stored
          cases stored
    have before : tx.failed = false := by
      cases failed : tx.failed with
      | false => rfl
      | true =>
          rw [sound.failed tx failed] at fine
          cases fine
    rw [Tx.commit_ok fine] at stored
    have start := sound.start tx
    refine ⟨before, ?_⟩
    rcases ran : x tx with ⟨outcome, ⟨_, _, _⟩⟩
    simp_all

theorem runs_pure {b : α} : Runs (pure a : Work σ ε α) tx b s ↔
    tx.failed = false ∧ b = a ∧ s = tx.now := by
  rw [(sound_pure a).runs_iff, pure_run]
  constructor
  · rintro ⟨value, stored⟩
    cases value
    cases failed : tx.failed with
    | true =>
        rw [Tx.commit_failed failed] at stored
        cases stored
    | false =>
        rw [Tx.commit_ok failed] at stored
        exact ⟨rfl, rfl, (Option.some.inj stored).symm⟩
  · rintro ⟨fine, rfl, rfl⟩
    exact ⟨rfl, Tx.commit_ok fine⟩

theorem runs_exec {statement : σ → Except ε (σ × α)} :
    Runs (exec statement) tx a s ↔ tx.failed = false ∧ statement tx.now = .ok (s, a) := by
  refine and_congr_right fun fine => ?_
  cases ran : statement tx.now with
  | error e =>
      rw [exec_refused fine ran]
      simp
  | ok next =>
      obtain ⟨s', a'⟩ := next
      rw [exec_ok fine ran]
      simp [and_comm]

theorem runs_recover_exec {statement : σ → Except ε (σ × α)} {handled : ε → Bool} {value : α} :
    Runs (recover handled value (exec statement)) tx a s ↔ Runs (exec statement) tx a s := by
  refine and_congr_right fun fine => ?_
  cases ran : statement tx.now with
  | error e =>
      have refused := exec_refused fine ran
      simp [recover, refused, fine]
  | ok next =>
      rw [recover_ok (exec_ok fine ran), exec_ok fine ran]

theorem runs_bind {f : α → Work σ ε β} (first : Sound x) (second : ∀ a, Sound (f a)) {b : β} :
    Runs (x >>= f) tx b s ↔ ∃ a s', Runs x tx a s' ∧ Runs (f a) { tx with now := s' } b s := by
  constructor
  · intro whole
    obtain ⟨value, stored⟩ := (first.bind second).runs_iff.mp whole
    rcases ran : x tx with ⟨outcome, tx'⟩
    cases outcome with
    | error e =>
        rw [bind_error ran] at value
        cases value
    | ok a =>
        rw [bind_ok ran] at value stored
        obtain ⟨fine, next⟩ := (second a).runs_iff.mpr ⟨value, stored⟩
        have here : Runs x tx a tx'.now :=
          first.runs_iff.mpr (by rw [ran]; exact ⟨rfl, Tx.commit_ok fine⟩)
        have same : tx' = { tx with now := tx'.now } := by
          have both := ran.symm.trans here.2
          exact congrArg Prod.snd both
        exact ⟨a, tx'.now, here, same ▸ ⟨fine, next⟩⟩
  · rintro ⟨a, s', ⟨fine, ran⟩, -, next⟩
    exact ⟨fine, by rw [bind_ok ran, next]⟩

end Runs

end Work

end Scand.Foundation.Transaction
