/- path: Scand/InventoryPull/Silence
   layer: results
   digest: An older inventory pull stays silent after a newer one or a reset, as long as every write is
   made under the current generation and none while a reset is between its clear and its increment. -/

import Scand.InventoryPull.SingleJob

set_option autoImplicit false
set_option relaxedAutoImplicit false

namespace Scand.InventoryPull.Silence

open Scand.Foundation.Interleaving
open Scand.InventoryPull.Events
open Scand.InventoryPull.Jobs

abbrev Proc := Pc × List (Pc × Reply)

def jobOf : Pc → Option Job
  | .readAllowed job | .abandonRuns job | .abandonCheckpoints job | .startNew job | .startRun job
  | .startCheckpoint job | .emit job _ _ | .updateState job _ _ | .broadcastEvent job _ _
  | .pullCatalog job | .commitCatalog job _ | .updateCheckpoint job _ _ | .selectSkus job
  | .choosePeriod job | .pullKa2 job | .importRequest job _ | .checkGeneration job _
  | .finishRun job _ | .finishCheckpoint job _ | .failState job _ | .failBroadcast job _ => some job
  | .takeGeneration _ | .finished | .resetPullRuns | .resetOzonRuns | .resetCheckpoints
  | .resetState | .resetOzon | .bumpGeneration => none

/-- The job that a place shows something of, and the snapshot if it stores one. -/
def output (env : Env) : Pc → Option (Job × Option InventorySnapshot)
  | .startNew job => some (job, some (startNew job.jobId))
  | .updateState job e _ =>
      some (job, some (e.snapshot job.jobId (e.object env.parse job.jobId)))
  | .broadcastEvent job _ _ => some (job, none)
  | .failState job error => some (job, some (failureSnapshot job.jobId error))
  | .failBroadcast job _ => some (job, none)
  | _ => none

/-- Between the statement of a reset that clears the state and its increment of the generation. -/
def clearing : Pc → Bool
  | .emit _ _ next | .updateState _ _ next | .broadcastEvent _ _ next
  | .updateCheckpoint _ _ next => clearing next
  | .resetOzon | .bumpGeneration => true
  | _ => false

/-- The generation from which on the jobs may speak after this step: that of a job which executes
`start_new`, or the one with which a reset completes. -/
def announced (s : Shared) : Pc → Option Nat
  | .startNew job => some job.generation
  | .bumpGeneration => some (s.generation + 1)
  | _ => none

/-- Whatever is shown is of the current generation, and no snapshot is stored while a reset has
cleared the state but not yet incremented the generation. -/
def Undisturbed (env : Env) (c : Config Shared Proc) : Label Proc Reply → Prop
  | .spawn _ => True
  | .act i _ => ∀ p ∈ c.procs[i]?, ∀ shown ∈ output env p.1,
      shown.1.generation = c.shared.generation ∧
        (shown.2.isSome = true → ∀ q ∈ c.procs, clearing q.1 = false)

/-- The process stored this snapshot for a job of generation `g` or later. -/
def StoredSince (env : Env) (g : Nat) (snap : InventorySnapshot) (p : Proc) : Prop :=
  ∃ e ∈ p.2, ∃ job, output env e.1 = some (job, some snap) ∧ g ≤ job.generation

def stateAfter (env : Env) (pc : Pc) (state : Option InventorySnapshot) :
    Option InventorySnapshot :=
  match pc with
  | .resetState => none
  | pc => match output env pc with
    | some (_, some snap) => some snap
    | _ => state

section Steps

variable {env : Env} {i : Nat} {s s' : Shared} {pc pc' : Pc} {r : Reply}

theorem jobOf_output {shown : Job × Option InventorySnapshot} (given : output env pc = some shown) :
    jobOf pc = some shown.1 := by
  cases pc <;> cases given <;> rfl

@[simp] theorem clearing_reportProgress (job : Job) (progress : List (String × String))
    (next : Pc) : clearing (reportProgress job progress next) = clearing next := by
  induction progress with
  | nil => rfl
  | cons report progress ih => exact ih

/-- What a step does to the generation, the state and the events, by the place it is made from. -/
structure Shows (env : Env) (s : Shared) (pc : Pc) (s' : Shared) (pc' : Pc) : Prop where
  generation : s.generation ≤ s'.generation
  state : s'.state = stateAfter env pc s.state
  broadcast : output env pc = none → s'.broadcast = s.broadcast
  clears : clearing pc' = true → clearing pc = true ∨ pc = .resetState

private theorem request_shows (stepped : requestStep s pc r = some (s', pc')) :
    Shows env s pc s' pc' := by
  cases pc <;> simp only [requestStep, Option.some.injEq, Prod.mk.injEq, reduceCtorEq] at stepped
  all_goals obtain ⟨rfl, rfl⟩ := stepped
  case takeGeneration query =>
    refine ⟨Nat.le_succ _, rfl, fun _ => rfl, fun now => ?_⟩
    cases now
  all_goals
    refine ⟨le_refl _, rfl, fun _ => rfl, fun now => ?_⟩
    cases now

private theorem emit_shows (stepped : emitStep env s pc = some (s', pc')) :
    Shows env s pc s' pc' := by
  cases pc <;> simp only [emitStep, Option.some.injEq, Prod.mk.injEq, reduceCtorEq] at stepped
  all_goals obtain ⟨rfl, rfl⟩ := stepped
  case emit job e next =>
    refine ⟨le_refl _, rfl, fun _ => rfl, fun now => Or.inl ?_⟩
    split at now
    · exact now
    · exact now
  case updateState job e next =>
    refine ⟨le_refl _, rfl, fun shown => ?_, Or.inl⟩
    cases shown
  case broadcastEvent job e next =>
    refine ⟨le_refl _, rfl, fun shown => ?_, Or.inl⟩
    cases shown

private theorem worker_shows (stepped : workerStep env s pc r = some (s', pc')) :
    Shows env s pc s' pc' := by
  cases pc <;> simp only [workerStep, Option.some.injEq, Prod.mk.injEq, reduceCtorEq] at stepped
  case pullCatalog job =>
    obtain ⟨rfl, rfl⟩ := stepped
    refine ⟨le_refl _, rfl, fun _ => rfl, fun now => ?_⟩
    split at now
    · rw [clearing_reportProgress] at now
      split at now <;> cases now
    · cases now
  case commitCatalog job change =>
    split at stepped
    all_goals
      cases stepped
      refine ⟨le_refl _, rfl, fun _ => rfl, fun now => ?_⟩
      cases now
  case importRequest job req =>
    split at stepped
    all_goals
      cases stepped
      refine ⟨le_refl _, rfl, fun _ => rfl, fun now => ?_⟩
    · split at now <;> cases now
    · cases now
  case updateCheckpoint job u next =>
    obtain ⟨rfl, rfl⟩ := stepped
    exact ⟨le_refl _, rfl, fun _ => rfl, Or.inl⟩
  case failState job error =>
    obtain ⟨rfl, rfl⟩ := stepped
    refine ⟨le_refl _, rfl, fun shown => ?_, fun now => ?_⟩
    · cases shown
    · cases now
  case failBroadcast job error =>
    obtain ⟨rfl, rfl⟩ := stepped
    refine ⟨le_refl _, rfl, fun shown => ?_, fun now => ?_⟩
    · cases shown
    · cases now
  all_goals
    obtain ⟨rfl, rfl⟩ := stepped
    refine ⟨le_refl _, rfl, fun _ => rfl, fun now => ?_⟩
    repeat' split at now
    all_goals cases now

private theorem reset_shows (stepped : resetStep s pc r = some (s', pc')) :
    Shows env s pc s' pc' := by
  cases pc <;> simp only [resetStep, Option.some.injEq, Prod.mk.injEq, reduceCtorEq] at stepped
  all_goals obtain ⟨rfl, rfl⟩ := stepped
  case resetState => exact ⟨le_refl _, rfl, fun _ => rfl, fun _ => Or.inr rfl⟩
  case resetOzon => exact ⟨le_refl _, rfl, fun _ => rfl, fun _ => Or.inl rfl⟩
  case bumpGeneration =>
    refine ⟨Nat.le_succ _, rfl, fun _ => rfl, fun now => ?_⟩
    cases now
  all_goals
    refine ⟨le_refl _, rfl, fun _ => rfl, fun now => ?_⟩
    split at now <;> cases now

theorem jobs_shows (stepped : (jobs env).step i s pc r = some (s', pc')) :
    Shows env s pc s' pc' := by
  rcases jobs_step stepped with request | emitted | worked | reset
  · exact request_shows request
  · exact emit_shows emitted
  · exact worker_shows worked
  · exact reset_shows reset

end Steps

section Runs

variable {env : Env} {c d : Config Shared Proc} {l : Label Proc Reply} {g : Nat}

/-- While a reset stands between its clear and its increment, nothing is stored. -/
def Emptied (c : Config Shared Proc) : Prop :=
  ∀ p ∈ c.procs, clearing p.1 = true → c.shared.state = none

/-- Only jobs of generation `g` or later are shown, and only they can still be shown. -/
structure Since (env : Env) (g : Nat) (c : Config Shared Proc) : Prop where
  reached : g ≤ c.shared.generation
  held : ∀ snap ∈ c.shared.state, ∃ p ∈ c.procs, StoredSince env g snap p

private theorem stateAfter_cases (env : Env) (pc : Pc) (state : Option InventorySnapshot) :
    (stateAfter env pc state = none ∧ pc = .resetState) ∨
      (∃ job snap, output env pc = some (job, some snap) ∧ stateAfter env pc state = some snap) ∨
      stateAfter env pc state = state := by
  cases pc
  case resetState => exact Or.inl ⟨rfl, rfl⟩
  case startNew job => exact Or.inr (Or.inl ⟨job, _, rfl, rfl⟩)
  case updateState job e next => exact Or.inr (Or.inl ⟨job, _, rfl, rfl⟩)
  case failState job error => exact Or.inr (Or.inl ⟨job, _, rfl, rfl⟩)
  all_goals exact Or.inr (Or.inr rfl)

private theorem entry_places {p : Proc} (entry : (jobs env).recording.entry p = true) :
    clearing p.1 = false := by
  obtain ⟨pc, past⟩ := p
  have first : isCall pc = true := (recording_entry entry).1
  cases pc <;> first | rfl | cases first

private theorem Emptied.next (before : Emptied c) (guard : Undisturbed env c l)
    (next : (jobs env).recording.next c l = some d) : Emptied d := by
  rcases next_cases next with ⟨p, rfl, entry, rfl⟩ | ⟨i, r, p, s, q, rfl, at_i, stepped, rfl⟩
  · apply forall_mem_snoc before
    intro now
    rw [entry_places entry] at now
    cases now
  · obtain ⟨inner, -⟩ := recording_step stepped
    have shows_ := jobs_shows inner
    intro p' mem now
    rcases stateAfter_cases env p.1 c.shared.state with
      ⟨emptied, -⟩ | ⟨job, snap, shown, stored⟩ | same
    · exact shows_.state.trans emptied
    · -- a snapshot is stored: by the guard no process is clearing, before or after the step
      have none_clearing := (guard p at_i _ shown).2 rfl
      have mine := none_clearing p (List.mem_of_getElem? at_i)
      rcases List.mem_or_eq_of_mem_set mem with old | rfl
      · rw [none_clearing p' old] at now
        cases now
      · rcases shows_.clears now with before_too | reset
        · rw [mine] at before_too
          cases before_too
        · rw [reset] at shown
          cases shown
    · have kept : s.state = c.shared.state := shows_.state.trans same
      rw [kept]
      rcases List.mem_or_eq_of_mem_set mem with old | rfl
      · exact before p' old now
      · rcases shows_.clears now with before_too | reset
        · exact before p (List.mem_of_getElem? at_i) before_too
        · rw [← kept, shows_.state, reset]
          rfl

private theorem StoredSince.moved {snap : InventorySnapshot} {p q : Proc} {e : Pc × Reply}
    (stored : StoredSince env g snap p) (same : q.2 = p.2 ++ [e]) : StoredSince env g snap q := by
  obtain ⟨earlier, mem, rest⟩ := stored
  refine ⟨earlier, ?_, rest⟩
  rw [same]
  exact List.mem_append_left _ mem

private theorem stored_after {snap : InventorySnapshot} {i : Nat} {p q : Proc} {e : Pc × Reply}
    {ps : List Proc} (at_i : ps[i]? = some p) (same : q.2 = p.2 ++ [e])
    (held : ∃ w ∈ ps, StoredSince env g snap w) : ∃ w ∈ ps.set i q, StoredSince env g snap w := by
  obtain ⟨w, mem, stored⟩ := held
  obtain ⟨j, at_j⟩ := List.mem_iff_getElem?.mp mem
  by_cases here : i = j
  · subst here
    obtain rfl : p = w := Option.some.inj (at_i.symm.trans at_j)
    have bound := (List.getElem?_eq_some_iff.mp at_i).1
    exact ⟨q, List.mem_set bound q, stored.moved same⟩
  · exact ⟨w, List.mem_iff_getElem?.mpr ⟨j, by rw [List.getElem?_set_ne here, at_j]⟩, stored⟩

private theorem Since.next (before : Since env g c) (guard : Undisturbed env c l)
    (next : (jobs env).recording.next c l = some d) : Since env g d := by
  rcases next_cases next with ⟨p, rfl, entry, rfl⟩ | ⟨i, r, p, s, q, rfl, at_i, stepped, rfl⟩
  · refine ⟨before.reached, fun snap held => ?_⟩
    obtain ⟨w, mem, stored⟩ := before.held snap held
    exact ⟨w, List.mem_append_left _ mem, stored⟩
  · obtain ⟨inner, past⟩ := recording_step stepped
    have shows_ := jobs_shows inner
    have later : g ≤ s.generation := before.reached.trans shows_.generation
    refine ⟨later, fun snap held => ?_⟩
    have now : stateAfter env p.1 c.shared.state = some snap := shows_.state.symm.trans held
    rcases stateAfter_cases env p.1 c.shared.state with
      ⟨emptied, -⟩ | ⟨job, other, shown, stored⟩ | same
    · rw [emptied] at now
      cases now
    · obtain rfl : other = snap := Option.some.inj (stored.symm.trans now)
      have current := (guard p at_i _ shown).1
      have bound := (List.getElem?_eq_some_iff.mp at_i).1
      have mem : (p.1, r) ∈ q.2 := by
        rw [past]
        exact List.mem_append_right _ List.mem_cons_self
      exact ⟨q, List.mem_set bound q, _, mem, job, shown, current ▸ before.reached⟩
    · rw [same] at now
      exact stored_after at_i past (before.held snap now)

private theorem since_announced {i : Nat} {r : Reply} {p : Proc} (before : Emptied c)
    (at_i : c.procs[i]? = some p) (announces : announced c.shared p.1 = some g)
    (guard : Undisturbed env c (.act i r))
    (next : (jobs env).recording.next c (.act i r) = some d) : Since env g d := by
  obtain ⟨p', s, q, at_i', stepped, rfl⟩ := next_act next
  obtain rfl : p = p' := Option.some.inj (at_i.symm.trans at_i')
  obtain ⟨inner, past⟩ := recording_step stepped
  have shows_ := jobs_shows inner
  obtain ⟨pc, history⟩ := p
  cases pc <;> simp only [announced, Option.some.injEq, reduceCtorEq] at announces
  case startNew job =>
    have current := (guard _ at_i _ rfl).1
    have later : g ≤ s.generation := by
      have grows := shows_.generation
      simp only at current
      omega
    refine ⟨later, fun snap held => ?_⟩
    have stored : some (startNew job.jobId) = some snap := shows_.state.symm.trans held
    have bound := (List.getElem?_eq_some_iff.mp at_i).1
    have mem : (.startNew job, r) ∈ q.2 := by
      rw [past]
      exact List.mem_append_right _ List.mem_cons_self
    exact ⟨q, List.mem_set bound q, _, mem, job, by rw [← Option.some.inj stored]; rfl,
      announces.ge⟩
  case bumpGeneration =>
    have emptied : s.state = none :=
      shows_.state.trans (before _ (List.mem_of_getElem? at_i) rfl)
    have reset : resetStep c.shared .bumpGeneration r = some (s, q.1) := inner
    simp only [resetStep, Option.some.injEq, Prod.mk.injEq] at reset
    have bumped : g ≤ s.generation := by
      rw [← reset.1]
      exact announces.ge
    refine ⟨bumped, fun snap held => ?_⟩
    rw [emptied] at held
    cases held

end Runs

/-- In every run without such a disturbance: once a job of generation `g` has executed `start_new`, or
a reset has completed with it, the state is empty or a snapshot that a job of that generation or a
later one stored, and no step of an older job changes the state or broadcasts anything. -/
theorem older_jobs_silent (env : Env) (s₀ : Shared) (c d e : Config Shared Proc) (i g : Nat)
    (r : Reply) (p : Proc)
    (before : Reach (jobs env).recording (Undisturbed env) ⟨s₀, []⟩ c)
    (at_i : c.procs[i]? = some p) (announces : announced c.shared p.1 = some g)
    (guard : Undisturbed env c (.act i r))
    (next : (jobs env).recording.next c (.act i r) = some d)
    (after : Reach (jobs env).recording (Undisturbed env) d e) :
    (∀ snap ∈ e.shared.state, ∃ q ∈ e.procs, StoredSince env g snap q) ∧
      ∀ j r' q job e', e.procs[j]? = some q → jobOf q.1 = some job → job.generation < g →
        Undisturbed env e (.act j r') → (jobs env).recording.next e (.act j r') = some e' →
        e'.shared.state = e.shared.state ∧ e'.shared.broadcast = e.shared.broadcast := by
  have emptied : Emptied c :=
    before.invariant (fun q mem => nomatch mem) fun _ _ _ => Emptied.next
  have since : Since env g e :=
    after.invariant (since_announced emptied at_i announces guard next) fun _ _ _ => Since.next
  refine ⟨since.held, ?_⟩
  intro j r' q job e' at_j owner older guard' next'
  obtain ⟨q', s, _, at_j', stepped, rfl⟩ := next_act next'
  obtain rfl : q = q' := Option.some.inj (at_j.symm.trans at_j')
  have shows_ := jobs_shows (recording_step stepped).1
  have silent : output env q.1 = none := by
    rw [Option.eq_none_iff_forall_ne_some]
    intro shown given
    have current := (guard' q at_j shown given).1
    have same : shown.1 = job := Option.some.inj ((jobOf_output given).symm.trans owner)
    have reached := since.reached
    rw [same] at current
    omega
  refine ⟨?_, shows_.broadcast silent⟩
  rcases stateAfter_cases env q.1 e.shared.state with ⟨-, reset⟩ | ⟨_, _, shown, -⟩ | same
  · rw [reset] at owner
    cases owner
  · rw [silent] at shown
    cases shown
  · exact shows_.state.trans same

section Sample

open Scand.InventoryPull.SingleJob (sampleEnv)

def CallsSucceed (_ : Config Shared Proc) : Label Proc Reply → Prop
  | .spawn _ => True
  | .act _ r => r.dbOk = true

instance : ∀ c l, Decidable (CallsSucceed c l)
  | _, .spawn _ => .isTrue trivial
  | _, .act _ r => inferInstanceAs (Decidable (r.dbOk = true))

instance (env : Env) : ∀ c l, Decidable (Undisturbed env c l)
  | _, .spawn _ => .isTrue trivial
  | c, .act i _ => inferInstanceAs (Decidable (∀ p ∈ c.procs[i]?, ∀ shown ∈ output env p.1,
      shown.1.generation = c.shared.generation ∧
        (shown.2.isSome = true → ∀ q ∈ c.procs, clearing q.1 = false)))

/-- `n` steps of process `i`, at a time in microseconds; 1C cannot be reached. -/
def recorded (i n micros : Nat) : List (Label Proc Reply) :=
  List.replicate n (.act i { micros := micros })

def checkedWorker : List (Label Proc Reply) :=
  .spawn (.takeGeneration {}, []) :: recorded 0 8 1

def newerRequest : List (Label Proc Reply) :=
  .spawn (.takeGeneration {}, []) :: recorded 1 4 2

/-- A reset into whose gap between clearing and incrementing the worker stores its snapshot. -/
def resetAround : List (Label Proc Reply) :=
  .spawn (.resetPullRuns, []) :: recorded 1 4 2 ++ recorded 0 1 1 ++ recorded 1 1 2

private theorem not_storedSince {g : Nat} {snap : InventorySnapshot} {q : Proc}
    (older : (q.2.all fun e => (output sampleEnv e.1).all fun shown => shown.1.generation < g) =
      true) : ¬ StoredSince sampleEnv g snap q := by
  intro stored
  obtain ⟨e, mem, job, shown, since⟩ := stored
  have all := List.all_eq_true.mp older e mem
  rw [shown] at all
  have before : job.generation < g := of_decide_eq_true all
  omega

/-- A worker that passed its check replaces the state that a newer request has started; and a reset
completes over the snapshot of a job that it should have silenced. -/
theorem older_job_shown :
    (∃ c d e p q job, Reach (jobs sampleEnv).recording CallsSucceed ⟨{}, []⟩ c ∧
      c.procs[1]? = some p ∧ announced c.shared p.1 = some 2 ∧
      (jobs sampleEnv).recording.next c (.act 1 { micros := 2 }) = some d ∧
      d.procs[0]? = some q ∧ jobOf q.1 = some job ∧ job.generation < 2 ∧
      (jobs sampleEnv).recording.next d (.act 0 { micros := 1 }) = some e ∧
      e.shared.state ≠ d.shared.state) ∧
    ∃ c d p snap, Reach (jobs sampleEnv).recording CallsSucceed ⟨{}, []⟩ c ∧
      c.procs[1]? = some p ∧ announced c.shared p.1 = some 2 ∧
      (jobs sampleEnv).recording.next c (.act 1 { micros := 2 }) = some d ∧
      d.shared.state = some snap ∧ ∀ q ∈ d.procs, ¬ StoredSince sampleEnv 2 snap q := by
  constructor
  · obtain ⟨c, d, reach, next, test⟩ := reach_next_of_run_test (M := (jobs sampleEnv).recording)
      (G := CallsSucceed) (g := fun c l => decide (CallsSucceed c l)) (c := ⟨{}, []⟩)
      (checkedWorker ++ newerRequest) (.act 1 { micros := 2 })
      (fun c d => (c.procs[1]?.any fun p => announced c.shared p.1 = some 2) &&
        (d.procs[0]?.any fun q => (jobOf q.1).any fun job => job.generation < 2) &&
        ((jobs sampleEnv).recording.next d (.act 0 { micros := 1 })).any
          fun e => e.shared.state ≠ d.shared.state)
      (fun _ _ => of_decide_eq_true) (by decide)
    simp only [Bool.and_eq_true, Option.any_eq_true, decide_eq_true_eq] at test
    obtain ⟨⟨⟨p, at_p, announces⟩, q, at_q, job, owner, older⟩, e, changed, differs⟩ := test
    exact ⟨c, d, e, p, q, job, reach, at_p, announces, next, at_q, owner, older, changed, differs⟩
  · obtain ⟨c, d, reach, next, test⟩ := reach_next_of_run_test (M := (jobs sampleEnv).recording)
      (G := CallsSucceed) (g := fun c l => decide (CallsSucceed c l)) (c := ⟨{}, []⟩)
      (checkedWorker ++ resetAround) (.act 1 { micros := 2 })
      (fun c d => (c.procs[1]?.any fun p => announced c.shared p.1 = some 2) &&
        d.shared.state.isSome &&
        d.procs.all fun q => q.2.all fun e => (output sampleEnv e.1).all fun shown =>
          shown.1.generation < 2)
      (fun _ _ => of_decide_eq_true) (by decide)
    simp only [Bool.and_eq_true, Option.any_eq_true, decide_eq_true_eq] at test
    obtain ⟨⟨⟨p, at_p, announces⟩, stored⟩, older⟩ := test
    obtain ⟨snap, held⟩ := Option.isSome_iff_exists.mp stored
    exact ⟨c, d, p, snap, reach, at_p, announces, next, held,
      fun q mem => not_storedSince (List.all_eq_true.mp older q mem)⟩

theorem older_jobs_silent_newer :
    ∃ d : Config Shared Proc, d.shared.state.isSome = true ∧
      ∀ snap ∈ d.shared.state, ∃ q ∈ d.procs, StoredSince sampleEnv 2 snap q := by
  obtain ⟨c, d, reach, next, test⟩ := reach_next_of_run_test (M := (jobs sampleEnv).recording)
    (G := Undisturbed sampleEnv) (g := fun c l => decide (Undisturbed sampleEnv c l))
    (c := ⟨{}, []⟩) (checkedWorker ++ recorded 0 2 1 ++ newerRequest) (.act 1 { micros := 2 })
    (fun c d => (c.procs[1]?.any fun p => announced c.shared p.1 = some 2) &&
      decide (Undisturbed sampleEnv c (.act 1 { micros := 2 })) && d.shared.state.isSome)
    (fun _ _ => of_decide_eq_true) (by decide)
  simp only [Bool.and_eq_true, Option.any_eq_true, decide_eq_true_eq] at test
  obtain ⟨⟨⟨p, at_p, announces⟩, guard⟩, shown⟩ := test
  exact ⟨d, shown, (older_jobs_silent sampleEnv {} c d d 1 2 _ p reach at_p announces guard next
    .refl).1⟩

end Sample

end Scand.InventoryPull.Silence
