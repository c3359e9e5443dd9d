/- path: Scand/Ozon/Progress
   layer: results
   digest: A progress step that the interval between two messages suppresses: it is made up for exactly
   where the progress has by then gone on to another step. -/

import Scand.Ozon.Service

set_option autoImplicit false
set_option relaxedAutoImplicit false

namespace Scand.Ozon.Progress

open Scand.Ozon.Service

structure Call where
  clock : Clock
  processed : Int
  status : String

structure Sent where
  call : Call
  lastNotifiedPercent : Int
  lastNotifyTime : Option Int
  notified : Bool

def Sent.running (e : Sent) : Prop := e.call.status = "running"

instance (e : Sent) : Decidable e.running := inferInstanceAs (Decidable (_ = _))

section Run

variable (conf : Conf) (total : Int)

/-- The calls of a run, each on what the ones before it left. -/
def sends : Shared → SyncCheckpoint → List Call → List Sent
  | _, _, [] => []
  | s, cp, c :: calls =>
      let next := sendProgress conf c.clock c.processed total c.status s cp
      { call := c
        lastNotifiedPercent := cp.lastNotifiedPercent
        lastNotifyTime := s.lastNotifyTime
        notified := s.notified.length < next.1.notified.length } :: sends next.1 next.2 calls

def bucket (e : Sent) : Int :=
  let percent : ℚ := 100 * e.call.processed / total
  (wholePercent percent).tdiv conf.notifyEveryPercent * conf.notifyEveryPercent

def inTime (e : Sent) : Prop := intervalPasses conf e.call.clock.now e.lastNotifyTime = true

instance (e : Sent) : Decidable (inTime conf e) := inferInstanceAs (Decidable (_ = true))

/-- A later call is the first one that could make up for a step that the interval has suppressed. -/
structure MakesUp (first : Int) (before : List Sent) (suppressed : Sent) (between : List Sent)
    (later : Sent) : Prop where
  running : suppressed.running
  new : first < bucket conf total suppressed ∧
    ∀ e ∈ before, e.notified = true → bucket conf total e < bucket conf total suppressed
  early : ¬ inTime conf suppressed
  running' : later.running
  due : inTime conf later
  none_due : ∀ e ∈ between, e.running → ¬ inTime conf e
  reached : bucket conf total suppressed ≤ bucket conf total later

/-- Every suppressed step is made up for. -/
def Postponed (first : Int) (run : List Sent) : Prop :=
  ∀ before suppressed between later after, run = before ++ suppressed :: between ++ later :: after →
    MakesUp conf total first before suppressed between later → later.notified = true

/-- The progress is in another step than at any of the running calls before. -/
def Outgrown (earlier : List Sent) (later : Sent) : Prop :=
  ∀ e ∈ earlier, e.running → bucket conf total e < bucket conf total later

end Run

section Calls

variable {conf : Conf} {total : Int}

theorem percentPasses_eq (positive : 0 < total) (every : 0 < conf.notifyEveryPercent)
    (cp : SyncCheckpoint) (e : Sent) :
    percentPasses conf total (100 * e.call.processed / total) cp =
      if cp.lastNotifiedPercent < bucket conf total e then
        (true, { cp with lastNotifiedPercent := bucket conf total e }) else (false, cp) := by
  rw [percentPasses, if_neg (by omega), if_pos positive]
  rfl

/-- The step lemma: a running call notifies where it is in a new step and in time; the step counts as
notified in either case. -/
theorem sendProgress_running (positive : 0 < total) (every : 0 < conf.notifyEveryPercent) (s : Shared)
    (cp : SyncCheckpoint) (e : Sent) :
    (sendProgress conf e.call.clock e.call.processed total "running" s cp).2.lastNotifiedPercent =
        max cp.lastNotifiedPercent (bucket conf total e) ∧
      (s.notified.length < (sendProgress conf e.call.clock e.call.processed total "running" s
          cp).1.notified.length ↔
        cp.lastNotifiedPercent < bucket conf total e ∧
          intervalPasses conf e.call.clock.now s.lastNotifyTime = true) := by
  have passes := percentPasses_eq positive every cp e
  unfold sendProgress
  simp only [if_pos positive, if_true, passes]
  by_cases fresh : cp.lastNotifiedPercent < bucket conf total e
  · simp only [if_pos fresh]
    refine ⟨(max_eq_right fresh.le).symm, ?_⟩
    cases intervalPasses conf e.call.clock.now s.lastNotifyTime <;> simp [fresh]
  · simp only [if_neg fresh]
    refine ⟨(max_eq_left (not_lt.mp fresh)).symm, ?_⟩
    simp [fresh]

theorem sendProgress_other {status : String} (other : status ≠ "running") (clock : Clock)
    (processed : Int) (s : Shared) (cp : SyncCheckpoint) :
    (sendProgress conf clock processed total status s cp).2.lastNotifiedPercent = cp.lastNotifiedPercent ∧
      s.notified.length < (sendProgress conf clock processed total status s cp).1.notified.length := by
  unfold sendProgress
  simp [other]

/-- The run lemma: what a call finds kept is the largest step of the running calls before it. -/
theorem sends_split (positive : 0 < total) (every : 0 < conf.notifyEveryPercent) {s : Shared}
    {cp : SyncCheckpoint} {calls : List Call} {before after : List Sent} {e : Sent}
    (run : sends conf total s cp calls = before ++ e :: after) :
    (∀ b, e.lastNotifiedPercent < b ↔ cp.lastNotifiedPercent < b ∧
        ∀ x ∈ before, x.running → bucket conf total x < b) ∧
      (e.running → (e.notified = true ↔
        e.lastNotifiedPercent < bucket conf total e ∧ inTime conf e)) := by
  induction calls generalizing s cp before with
  | nil => cases List.append_eq_nil_iff.mp run.symm |>.2
  | cons c calls ih =>
      rw [sends] at run
      cases before with
      | nil =>
          obtain ⟨rfl, -⟩ := List.cons.inj run
          refine ⟨fun b => by simp, fun running => ?_⟩
          have named : c.status = "running" := running
          have step := (sendProgress_running positive every s cp {
            call := c, lastNotifiedPercent := 0, lastNotifyTime := none, notified := false }).2
          rw [decide_eq_true_iff, named]
          exact step
      | cons x before =>
          obtain ⟨rfl, rest⟩ := List.cons.inj run
          obtain ⟨kept, told⟩ := ih rest
          refine ⟨fun b => ?_, told⟩
          rw [kept, List.forall_mem_cons, ← and_assoc]
          refine and_congr_left fun _ => ?_
          by_cases running : c.status = "running"
          · have step := (sendProgress_running positive every s cp {
              call := c, lastNotifiedPercent := 0, lastNotifyTime := none, notified := false }).1
            rw [running]
            dsimp only at step
            rw [step, max_lt_iff]
            exact and_congr_right fun _ => ⟨fun below _ => below, fun below => below running⟩
          · rw [(sendProgress_other running c.clock c.processed s cp).1]
            exact (and_iff_left fun named => absurd named running).symm

end Calls

/-- In a run of a fixed total the call that could make up for a suppressed step does so exactly where the
progress has by then gone on to a step that no running call before was in: the suppressed step itself
already counts as notified. -/
theorem postponed_iff (conf : Conf) (total : Int) (s : Shared) (cp : SyncCheckpoint) (calls : List Call)
    (positive : 0 < total) (every : 0 < conf.notifyEveryPercent) (before : List Sent) (suppressed : Sent)
    (between : List Sent) (later : Sent) (after : List Sent)
    (run : sends conf total s cp calls = before ++ suppressed :: between ++ later :: after)
    (makes_up : MakesUp conf total cp.lastNotifiedPercent before suppressed between later) :
    later.notified = true ↔ Outgrown conf total (before ++ suppressed :: between) later := by
  obtain ⟨kept, told⟩ := sends_split positive every run
  have above : cp.lastNotifiedPercent < bucket conf total later :=
    lt_of_lt_of_le makes_up.new.1 makes_up.reached
  rw [told makes_up.running', kept, and_iff_left makes_up.due, and_iff_right above]
  rfl

section Sample

def sampleConf : Conf where
  pageSize := 100

def running (seconds processed : Int) : Call where
  clock := { now := 1000000000 * seconds, sent := 1000000000 * seconds + 5 }
  processed := processed
  status := "running"

/-- The step of 5 percent comes a second after the first message; two seconds later, still in it, the
next call is in time and does not notify. -/
theorem suppressed_step_lost : ¬ Postponed sampleConf 100 (-1)
    (sends sampleConf 100 {} {} [running 1 0, running 2 5, running 4 7]) := by
  intro postponed
  have told := postponed [_] _ [] _ [] rfl {
    running := rfl
    new := by decide +kernel
    early := by decide +kernel
    running' := rfl
    due := by decide +kernel
    none_due := by decide
    reached := by decide +kernel }
  revert told
  decide +kernel

theorem postponed_iff_next_step : ∃ first suppressed later : Sent,
    sends sampleConf 100 {} {} [running 1 0, running 2 5, running 4 10] = [first, suppressed, later] ∧
      MakesUp sampleConf 100 (-1) [first] suppressed [] later ∧ later.notified = true := by
  obtain ⟨first, suppressed, later, run, makes_up, outgrown⟩ : ∃ first suppressed later : Sent,
      sends sampleConf 100 {} {} [running 1 0, running 2 5, running 4 10] = [first, suppressed, later] ∧
        MakesUp sampleConf 100 (-1) [first] suppressed [] later ∧
        Outgrown sampleConf 100 [first, suppressed] later :=
    ⟨_, _, _, rfl, {
      running := rfl
      new := by decide +kernel
      early := by decide +kernel
      running' := rfl
      due := by decide +kernel
      none_due := by decide
      reached := by decide +kernel }, by unfold Outgrown; decide +kernel⟩
  refine ⟨first, suppressed, later, run, makes_up, ?_⟩
  exact (postponed_iff sampleConf 100 {} {} [running 1 0, running 2 5, running 4 10] (by decide)
    (by decide) [first] suppressed [] later [] run makes_up).mpr outgrown

end Sample

end Scand.Ozon.Progress
