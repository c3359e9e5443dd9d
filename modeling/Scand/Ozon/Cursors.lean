/- path: Scand/Ozon/Cursors
   layer: results
   digest: The cursors that an Ozon run requests: none twice whose page it has processed, exactly if the
   server names none twice, and then the run ends. -/

import Scand.Ozon.WholeListing
import Mathlib.Data.Finset.Card
import Mathlib.Data.List.Chain

set_option autoImplicit false
set_option relaxedAutoImplicit false

namespace Scand.Ozon.Cursors

open Scand.Foundation.Interleaving
open Scand.Foundation.JsonValue
open Scand.Ozon.Client
open Scand.Ozon.Service
open Scand.Ozon.StopFlag (Past Proc)
open Scand.Ozon.WholeListing (early)

abbrev Requests := List (String × OzonPage)

def Processed (page : OzonPage) : Prop := page.networkError = false ∧ page.items ≠ []

instance (page : OzonPage) : Decidable (Processed page) := inferInstanceAs (Decidable (_ ∧ _))

/-- No request has the cursor of a page that was processed before it. -/
def NeverAgain (reqs : Requests) : Prop := reqs.Pairwise fun a b => Processed a.2 → b.1 ≠ a.1

instance (reqs : Requests) : Decidable (NeverAgain reqs) := inferInstanceAs (Decidable (List.Pairwise _ _))

def offered (reqs : Requests) : List String :=
  reqs.filterMap fun a => if a.2.hasMore then some a.2.lastId else none

def cursors : Requests → List String
  | [] => []
  | a :: rest => a.1 :: offered (a :: rest).dropLast

/-- How a request leads to the next one: to the same page where it failed, and behind a full page to the
cursor that the page names. -/
inductive Leads (a : String × OzonPage) (cursor : String) : Prop
  | again : a.2.hasMore = false → a.2.networkError = true → cursor = a.1 → Leads a cursor
  | onward : a.2.hasMore = true → Processed a.2 → cursor = a.2.lastId → Leads a cursor

section Requests

def Chain (reqs : Requests) : Prop := reqs.IsChain fun a b => Leads a b.1

variable {reqs rest : Requests} {a b : String × OzonPage}

theorem cursors_again (none_more : a.2.hasMore = false) (same : b.1 = a.1) :
    cursors (a :: b :: rest) = cursors (b :: rest) := by
  have dropped : offered (a :: (b :: rest).dropLast) = offered ((b :: rest).dropLast) := by
    simp [offered, none_more]
  rw [cursors, cursors, List.dropLast_cons_cons, dropped, same]

theorem cursors_onward (more : a.2.hasMore = true) (next : b.1 = a.2.lastId) :
    cursors (a :: b :: rest) = a.1 :: cursors (b :: rest) := by
  have named : offered (a :: (b :: rest).dropLast) = a.2.lastId :: offered ((b :: rest).dropLast) := by
    simp [offered, more]
  rw [cursors, cursors, List.dropLast_cons_cons, named, next]

theorem mem_cursors (chain : Chain reqs) (cursor : String) :
    cursor ∈ cursors reqs ↔ ∃ a ∈ reqs, a.1 = cursor := by
  induction reqs with
  | nil => simp [cursors]
  | cons a rest ih =>
      cases rest with
      | nil =>
          rw [List.exists_mem_cons_iff, cursors, List.dropLast_singleton]
          simp [offered, eq_comm (a := cursor)]
      | cons b rest =>
          obtain ⟨leads, chain⟩ := List.isChain_cons_cons.mp chain
          cases leads with
          | again none_more _ same =>
              rw [cursors_again none_more same, ih chain, List.exists_mem_cons_iff _ a]
              refine ⟨Or.inr, ?_⟩
              rintro (first | later)
              · exact ⟨b, List.mem_cons_self, same.trans first⟩
              · exact later
          | onward more _ next =>
              rw [cursors_onward more next, List.mem_cons, ih chain, List.exists_mem_cons_iff _ a]
              exact or_congr_left eq_comm

theorem neverAgain_iff (chain : Chain reqs) : NeverAgain reqs ↔ (cursors reqs).Nodup := by
  induction reqs with
  | nil => simp [NeverAgain, cursors]
  | cons a rest ih =>
      cases rest with
      | nil => simp [NeverAgain, cursors, offered]
      | cons b rest =>
          obtain ⟨leads, chain⟩ := List.isChain_cons_cons.mp chain
          have tail := ih chain
          rw [NeverAgain, List.pairwise_cons]
          cases leads with
          | again none_more failed same =>
              have not_processed : ¬ Processed a.2 := by
                intro processed
                rw [processed.1] at failed
                cases failed
              rw [cursors_again none_more same, ← tail]
              exact and_iff_right fun _ _ processed => absurd processed not_processed
          | onward more processed next =>
              rw [cursors_onward more next, List.nodup_cons, ← tail, mem_cursors chain]
              refine and_congr_left fun _ => ?_
              constructor
              · rintro apart ⟨c, mem, same⟩
                exact apart c mem processed same
              · intro apart c mem _ same
                exact apart ⟨c, mem, same⟩

theorem offered_snoc (reqs : Requests) (a : String × OzonPage) :
    offered (reqs ++ [a]) = offered reqs ++ if a.2.hasMore then [a.2.lastId] else [] := by
  rw [offered, List.filterMap_append]
  cases more : a.2.hasMore <;> simp [offered, more]

theorem length_cursors_snoc (reqs : Requests) (a : String × OzonPage) :
    (cursors (reqs ++ [a])).length = (offered reqs).length + 1 := by
  cases reqs with
  | nil => rfl
  | cons b rest =>
      have dropped : (b :: rest ++ [a]).dropLast = b :: rest := List.dropLast_concat
      rw [List.cons_append, cursors, ← List.cons_append, dropped, List.length_cons]

theorem Chain.snoc (chain : Chain reqs) (next : ∀ b ∈ reqs.getLast?, Leads b a.1) :
    Chain (reqs ++ [a]) := by
  refine List.isChain_append.mpr ⟨chain, List.isChain_singleton a, ?_⟩
  rintro b last c first
  obtain rfl : a = c := Option.some.inj first
  exact next b last

/-- No cursor was requested more than ten times, unless a page named it again. -/
structure Within (reqs : Requests) : Prop where
  chain : Chain reqs
  bound : reqs.length ≤ 10 * (cursors reqs).length

structure Onward (reqs : Requests) (cursor : String) (failures : Nat) : Prop where
  next : ∀ a ∈ reqs.getLast?, Leads a cursor
  bound : reqs.length ≤ 10 * (offered reqs).length + failures

theorem within_nil : Within [] := ⟨List.isChain_nil, Nat.le_refl _⟩

theorem onward_nil (cursor : String) : Onward [] cursor 0 where
  next := fun _ last => nomatch last
  bound := Nat.le_refl _

section Request

variable {cursor : String} {failures : Nat} {page : OzonPage}

theorem Within.snoc (within_ : Within reqs) (onward : Onward reqs cursor failures)
    (few : failures < maxConsecutiveFailures) : Within (reqs ++ [(cursor, page)]) := by
  refine ⟨within_.chain.snoc onward.next, ?_⟩
  have bound := onward.bound
  have ten : maxConsecutiveFailures = 10 := rfl
  rw [length_cursors_snoc, List.length_append, List.length_singleton]
  omega

theorem Onward.again (onward : Onward reqs cursor failures) (failed : page.networkError = true)
    (none_more : page.hasMore = false) : Onward (reqs ++ [(cursor, page)]) cursor (failures + 1) := by
  constructor
  · intro a last
    rw [List.getLast?_concat] at last
    obtain rfl := Option.some.inj last
    exact .again none_more failed rfl
  · have bound := onward.bound
    rw [offered_snoc, none_more, List.length_append, List.length_singleton]
    simp only [Bool.false_eq_true, if_false, List.append_nil]
    omega

theorem Onward.onward (onward : Onward reqs cursor failures) (few : failures < maxConsecutiveFailures)
    (processed : Processed page) (more : page.hasMore = true) :
    Onward (reqs ++ [(cursor, page)]) page.lastId 0 := by
  constructor
  · intro a last
    rw [List.getLast?_concat] at last
    obtain rfl := Option.some.inj last
    exact .onward more processed rfl
  · have bound := onward.bound
    have ten : maxConsecutiveFailures = 10 := rfl
    rw [offered_snoc, more, List.length_append, List.length_singleton]
    simp only [if_true, List.length_append, List.length_singleton]
    omega

end Request

end Requests

def requests (pageSize : Int) (past : Past) : Requests := past.filterMap fun e =>
  match e.1 with
  | .fetchPage v => some (v.lastId, fetchPageCursor pageSize e.2.http)
  | _ => none

/-- What the requests of a call are, by the place where it stands. -/
def At (reqs : Requests) : Pc → Prop
  | .saveRunning v | .checkStop v | .fetchPage v =>
      Within reqs ∧ Onward reqs v.lastId v.consecutiveFailures ∧
        v.consecutiveFailures < maxConsecutiveFailures
  | .saveRetry v | .sendRetry v => Within reqs ∧ Onward reqs v.lastId v.consecutiveFailures
  | .sendTotal v page | .fetchInfo v page | .fetchPrices v page _ | .upsertPage v page _ =>
      Within reqs ∧ v.consecutiveFailures = 0 ∧ (page.hasMore = true → Onward reqs page.lastId 0)
  | .setStore v more | .saveCheckpoint v more | .sendRunning v more =>
      Within reqs ∧ v.consecutiveFailures = 0 ∧ (more = true → Onward reqs v.lastId 0)
  | pc => Within reqs ∧ (early pc = true → reqs = [])

section Run

variable {conf : Conf} {i : Nat} {s s' : Shared} {pc pc' : Pc} {r : Reply} {past : Past}
  {reqs : Requests}

theorem networkError_readPage {data : Json} {page : OzonPage} (read : readPage data = .ok page) :
    page.networkError = false := by
  unfold readPage at read
  split at read
  · split at read
    · cases read
      rfl
    · rename_i o result _
      cases result with
      | object res =>
          simp only [needObject, bind, Except.bind, pure, Except.pure] at read
          cases listed : res.lookup "items" with
          | none =>
              rw [listed] at read
              cases read
              rfl
          | some items =>
              rw [listed] at read
              cases items with
              | array all =>
                  cases read
                  rfl
              | _ => cases read
      | _ => cases read
  · cases read
    rfl

theorem hasMore_of_error {pageSize : Int} {r : HttpReply}
    (failed : (fetchPageCursor pageSize r).networkError = true) :
    (fetchPageCursor pageSize r).hasMore = false := by
  unfold fetchPageCursor at failed ⊢
  by_cases answered : r.statusCode ≠ 200
  · rw [if_pos answered]
  · rw [if_neg answered] at failed ⊢
    cases read : r.body.bind readPage with
    | error text => rfl
    | ok page =>
        rw [read] at failed
        cases body : r.body with
        | error text =>
            rw [body] at read
            cases read
        | ok data =>
            rw [body] at read
            cases (networkError_readPage read).symm.trans failed

theorem requests_snoc (pageSize : Int) (past : Past) (v : RunVars) (r : Reply) :
    requests pageSize (past ++ [(.fetchPage v, r)]) =
      requests pageSize past ++ [(v.lastId, fetchPageCursor pageSize r.http)] := by
  rw [requests, List.filterMap_append]
  rfl

theorem requests_kept {pageSize : Int} (no_fetch : StopFlag.fetched.isFetch pc = false) :
    requests pageSize (past ++ [(pc, r)]) = requests pageSize past := by
  rw [requests, List.filterMap_append]
  cases pc <;> first | (cases no_fetch; done) | exact List.append_nil _

theorem late (begun : early pc = false) : early pc = true → reqs = [] := by
  intro begins
  rw [begun] at begins
  cases begins

theorem at_afterListing {v : RunVars} {page : OzonPage} (within_ : Within reqs)
    (reset : v.consecutiveFailures = 0) (onward : page.hasMore = true → Onward reqs page.lastId 0) :
    At reqs (afterListing v page) := by
  unfold afterListing
  split
  · exact ⟨within_, late rfl⟩
  · exact ⟨within_, reset, onward⟩

theorem at_fetchPage {v : RunVars} (stepped : runStep conf i s (.fetchPage v) r = some (s', pc'))
    (place : At reqs (.fetchPage v)) :
    At (reqs ++ [(v.lastId, fetchPageCursor conf.pageSize r.http)]) pc' := by
  obtain ⟨within_, onward, few⟩ := place
  have requested : Within (reqs ++ [(v.lastId, fetchPageCursor conf.pageSize r.http)]) :=
    within_.snoc onward few
  simp only [runStep] at stepped
  cases answered : (fetchPageCursor conf.pageSize r.http).networkError with
  | true =>
      rw [answered] at stepped
      cases stepped
      exact ⟨requested, onward.again answered (hasMore_of_error answered)⟩
  | false =>
      have led (more : (fetchPageCursor conf.pageSize r.http).hasMore = true) :=
        onward.onward few ⟨answered, ((hasMore_fetchPageCursor answered).mp more).1⟩ more
      rw [answered] at stepped
      simp only [Bool.false_eq_true, if_false] at stepped
      split at stepped
      · cases stepped
        exact ⟨requested, rfl, led⟩
      · cases stepped
        exact at_afterListing requested rfl led

theorem no_failures {cp : SyncCheckpoint} : (enter cp).consecutiveFailures < maxConsecutiveFailures := by
  show 0 < maxConsecutiveFailures
  decide

theorem at_runStep {pageSize : Int} (same : conf.pageSize = pageSize)
    (stepped : runStep conf i s pc r = some (s', pc')) (place : At (requests pageSize past) pc) :
    At (requests pageSize (past ++ [(pc, r)])) pc' := by
  subst same
  cases fetches : StopFlag.fetched.isFetch pc with
  | true =>
      cases pc <;> first | (cases fetches; done) | skip
      rw [requests_snoc]
      exact at_fetchPage stepped place
  | false =>
      rw [requests_kept fetches]
      generalize requests conf.pageSize past = reqs at place
      cases pc
      case fetchPage => cases fetches
      all_goals
        simp only [runStep, Option.some.injEq, Prod.mk.injEq, reduceCtorEq] at stepped
      case queued =>
        split at stepped
        · split at stepped <;> cases stepped
          exact place
        · cases stepped
      all_goals obtain ⟨rfl, rfl⟩ := stepped
      case readStore =>
        obtain rfl := place.2 rfl
        split
        · exact ⟨within_nil, onward_nil _, no_failures⟩
        · exact place
      case loadCheckpoint =>
        obtain rfl := place.2 rfl
        exact ⟨within_nil, onward_nil _, no_failures⟩
      case saveRunning v => exact place
      case checkStop v =>
        split
        · exact ⟨place.1, late rfl⟩
        · exact place
      case saveRetry v => exact place
      case sendRetry v =>
        obtain ⟨within_, onward⟩ := place
        split
        · exact ⟨within_, late rfl⟩
        · rename_i few
          exact ⟨within_, onward, Nat.lt_of_not_le few⟩
      case sendTotal v page =>
        obtain ⟨within_, reset, onward⟩ := place
        exact at_afterListing within_ reset onward
      case upsertPage v page details => exact place
      case sendRunning v more =>
        obtain ⟨within_, reset, onward⟩ := place
        split
        · rename_i goes_on
          have led := onward goes_on
          rw [← reset] at led
          exact ⟨within_, led, by rw [reset]; decide⟩
        · exact ⟨within_, late rfl⟩
      case fetchInfo | fetchPrices | setStore | saveCheckpoint => exact place
      all_goals
        first
          | exact ⟨place.1, late rfl⟩
          | (split <;> exact ⟨place.1, late rfl⟩)

theorem at_triggerStep (stepped : triggerStep i s pc r = some (s', pc')) (place : At reqs pc) :
    At reqs pc' := by
  cases pc <;> simp only [triggerStep, Option.some.injEq, Prod.mk.injEq, reduceCtorEq] at stepped
  case claimRunning | submit =>
    split at stepped <;> cases stepped <;> exact ⟨place.1, fun _ => place.2 rfl⟩
  all_goals
    obtain ⟨rfl, rfl⟩ := stepped
    first
      | exact ⟨place.1, fun _ => place.2 rfl⟩
      | (split <;>
          first
            | exact ⟨place.1, fun _ => place.2 rfl⟩
            | exact ⟨place.1, late rfl⟩)
      | exact ⟨place.1, late rfl⟩

theorem at_controlStep (stepped : controlStep s pc r = some (s', pc')) (place : At reqs pc) :
    At reqs pc' := by
  cases pc <;> simp only [controlStep, Option.some.injEq, Prod.mk.injEq, reduceCtorEq] at stepped
  case requestShutdown =>
    split at stepped <;> cases stepped <;> exact ⟨place.1, late rfl⟩
  all_goals
    obtain ⟨rfl, rfl⟩ := stepped
    first
      | exact ⟨place.1, late rfl⟩
      | (split <;> exact ⟨place.1, late rfl⟩)

theorem triggerStep_no_fetch (stepped : triggerStep i s pc r = some (s', pc')) :
    StopFlag.fetched.isFetch pc = false := by
  cases pc <;> first | rfl | cases stepped

theorem controlStep_no_fetch (stepped : controlStep s pc r = some (s', pc')) :
    StopFlag.fetched.isFetch pc = false := by
  cases pc <;> first | rfl | cases stepped

theorem at_step (stepped : (service conf).step i s pc r = some (s', pc'))
    (place : At (requests conf.pageSize past) pc) :
    At (requests conf.pageSize (past ++ [(pc, r)])) pc' := by
  rcases service_step stepped with trigger | run | control
  · rw [requests_kept (triggerStep_no_fetch trigger)]
    exact at_triggerStep trigger place
  · exact at_runStep rfl run place
  · rw [requests_kept (controlStep_no_fetch control)]
    exact at_controlStep control place

/-- The steps that a call has left, at most, up to its end or its next request. -/
def rank : Pc → Nat
  | .fullCheckShutdown => 21 | .fullResetCheckpoint => 20 | .fullRemoveStored => 19
  | .checkShutdown => 18 | .claimRunning => 17 | .clearStop => 16 | .startJob => 15
  | .abandonOld _ => 14 | .insertJob _ => 13 | .submit => 12 | .queued => 11 | .readStore => 10
  | .loadCheckpoint => 9 | .saveRunning _ => 8
  | .releaseRefused => 3 | .readRefusedJob => 2 | .failRefusedJob _ => 1 | .returned _ => 0
  | .checkStop _ => 7 | .fetchPage _ => 1
  | .saveRetry _ => 9 | .sendRetry _ => 8 | .saveFailed _ => 5 | .sendFailed _ => 4
  | .sendTotal _ _ => 14 | .fetchInfo _ _ => 13 | .fetchPrices _ _ _ => 12 | .upsertPage _ _ _ => 11
  | .setStore _ _ => 10 | .saveCheckpoint _ _ => 9 | .sendRunning _ _ => 8
  | .checkStopAtEnd _ => 6 | .saveDone _ => 5 | .sendDone _ => 4 | .readDoneJob _ => 3
  | .finishJob _ _ => 2 | .markStopped => 5 | .notifyStopped => 4 | .readJobToFail _ => 3
  | .failJob _ _ => 2 | .releaseRunning => 1 | .finished => 0
  | .stopStatus => 4 | .stopProgress => 3 | .stopNotify => 2 | .stopFlag => 1
  | .requestShutdown => 2 | .requestFlag => 1
  | .resetPullRuns => 7 | .resetOzonRuns => 6 | .resetCheckpoints => 5 | .resetProgress => 4
  | .resetRunning => 3 | .resetStop => 2 | .resetJob => 1

theorem rank_afterListing (v : RunVars) (page : OzonPage) : rank (afterListing v page) ≤ 13 := by
  unfold afterListing
  split
  · show 6 ≤ 13
    decide
  · exact Nat.le_refl 13

/-- Only a request of the listing may lengthen what a call has left. -/
theorem rank_step (stepped : (service conf).step i s pc r = some (s', pc')) :
    rank pc' + 1 ≤ rank pc + if StopFlag.fetched.isFetch pc then 14 else 0 := by
  rcases service_step stepped with trigger | run | control
  · cases pc <;> simp only [triggerStep, Option.some.injEq, Prod.mk.injEq, reduceCtorEq] at trigger
    case claimRunning | submit => split at trigger <;> cases trigger <;> decide
    all_goals
      obtain ⟨rfl, rfl⟩ := trigger
      first
        | exact Nat.le_refl _
        | (split <;> simp [rank, StopFlag.fetched.isFetch])
  · cases pc <;> simp only [runStep, Option.some.injEq, Prod.mk.injEq, reduceCtorEq] at run
    case queued =>
      split at run
      · split at run <;> cases run
        decide
      · cases run
    case fetchPage v =>
      split at run
      · cases run
        simp [rank, StopFlag.fetched.isFetch]
      · split at run <;> cases run
        · simp [rank, StopFlag.fetched.isFetch]
        · have behind := rank_afterListing { v with consecutiveFailures := 0 }
            (fetchPageCursor conf.pageSize r.http)
          show rank (afterListing _ _) + 1 ≤ 1 + 14
          omega
    case sendTotal v page =>
      obtain ⟨rfl, rfl⟩ := run
      have behind := rank_afterListing
        { v with cp := (sendProgress conf r.clock v.total v.cp.totalExpected "running" s v.cp).2 } page
      show rank (afterListing _ _) + 1 ≤ 14 + 0
      omega
    all_goals
      obtain ⟨rfl, rfl⟩ := run
      first
        | exact Nat.le_refl _
        | (split <;> simp [rank, StopFlag.fetched.isFetch])
  · cases pc <;> simp only [controlStep, Option.some.injEq, Prod.mk.injEq, reduceCtorEq] at control
    case requestShutdown => split at control <;> cases control <;> decide
    all_goals
      obtain ⟨rfl, rfl⟩ := control
      first
        | exact Nat.le_refl _
        | (split <;> simp [rank, StopFlag.fetched.isFetch])

def Spends (pageSize : Int) (p : Proc) : Prop :=
  p.2.length + rank p.1 ≤ 21 + 14 * (requests pageSize p.2).length

theorem spends_step (stepped : (service conf).step i s pc r = some (s', pc'))
    (spends : Spends conf.pageSize (pc, past)) :
    Spends conf.pageSize (pc', past ++ [(pc, r)]) := by
  have less := rank_step stepped
  have before : past.length + rank pc ≤ 21 + 14 * (requests conf.pageSize past).length := spends
  show (past ++ [(pc, r)]).length + rank pc' ≤ 21 + 14 * (requests conf.pageSize (past ++ [_])).length
  cases fetches : StopFlag.fetched.isFetch pc with
  | true =>
      cases pc <;> first | (cases fetches; done) | skip
      rw [requests_snoc, List.length_append, List.length_append, List.length_singleton,
        List.length_singleton]
      rw [fetches, if_pos rfl] at less
      omega
  | false =>
      rw [requests_kept fetches, List.length_append, List.length_singleton]
      rw [fetches, if_neg Bool.false_ne_true] at less
      omega

theorem rank_call (call : isCall pc = true) : rank pc ≤ 21 := by
  cases pc <;> first | (cases call; done) | (show _ ≤ _; decide)

theorem at_call (call : isCall pc = true) : At [] pc := by
  cases pc <;> first | (cases call; done) | exact ⟨within_nil, fun _ => rfl⟩

theorem stands {s₀ : Shared} {c : Config Shared Proc} {p : Proc}
    (reach : Reach (service conf).recording anyLabel ⟨s₀, []⟩ c) (at_i : c.procs[i]? = some p) :
    At (requests conf.pageSize p.2) p.1 ∧ Spends conf.pageSize p := by
  refine reach.process (I := fun p => At (requests conf.pageSize p.2) p.1 ∧ Spends conf.pageSize p)
    (fun p entry => ?_) (fun c p r s q before _ _ stepped => ?_) p at_i
  · obtain ⟨call, fresh⟩ := recording_entry entry
    have short := rank_call call
    refine ⟨?_, ?_⟩
    · rw [fresh]
      exact at_call call
    · show p.2.length + rank p.1 ≤ 21 + 14 * (requests conf.pageSize p.2).length
      rw [fresh, List.length_nil]
      omega
  · obtain ⟨stepped, past⟩ := recording_step stepped
    obtain ⟨place, spends⟩ := before
    rw [Spends, past]
    exact ⟨at_step stepped place, spends_step stepped spends⟩

end Run

def atEnd : Pc → Bool
  | .finished | .returned _ => true
  | _ => false

/-- No processed page is requested again; where the server names finitely many cursors, the requests
are finitely many and so are the steps; and the next step can be taken, unless the call is over or waits
for the pool. -/
structure Ends (conf : Conf) (p : Proc) : Prop where
  never_again : NeverAgain (requests conf.pageSize p.2)
  bounded : ∀ S : Finset String, (∀ cursor ∈ offered (requests conf.pageSize p.2), cursor ∈ S) →
    (requests conf.pageSize p.2).length ≤ 10 * (S.card + 1) ∧ p.2.length ≤ 21 + 140 * (S.card + 1)
  goes_on : p.1 = .queued ∨ atEnd p.1 = true ∨
    ∀ i s r, ((service conf).step i s p.1 r).isSome = true

section Ends

variable {conf : Conf} {reqs : Requests} {pc : Pc}

theorem goes_on (waits : pc ≠ .queued) (goes : atEnd pc = false) (i : Nat) (s : Shared) (r : Reply) :
    ((service conf).step i s pc r).isSome = true := by
  cases pc <;>
    first
      | (cases goes; done)
      | exact absurd rfl waits
      | rfl
      | skip
  case claimRunning | submit | fetchPage | requestShutdown =>
    simp only [service, triggerStep, runStep, controlStep]
    split <;> first | rfl | (split <;> rfl)

theorem at_within (place : At reqs pc) : Within reqs := by
  cases pc <;> exact place.1

theorem length_cursors_le (nodup : (cursors reqs).Nodup) {S : Finset String}
    (named : ∀ cursor ∈ offered reqs, cursor ∈ S) : (cursors reqs).length ≤ S.card + 1 := by
  cases reqs with
  | nil => exact Nat.zero_le _
  | cons a rest =>
      have sublist : (offered (a :: rest).dropLast).Sublist (offered (a :: rest)) :=
        (List.dropLast_sublist _).filterMap _
      have among : (offered (a :: rest).dropLast).toFinset ⊆ S := by
        intro cursor mem
        exact named cursor (sublist.subset (List.mem_toFinset.mp mem))
      have apart : (offered (a :: rest).dropLast).Nodup := (List.nodup_cons.mp nodup).2
      rw [cursors, List.length_cons, ← List.toFinset_card_of_nodup apart]
      exact Nat.succ_le_succ (Finset.card_le_card among)

end Ends

/-- A run of the Ozon sync, at any moment of any interleaving and for any answers, requests no processed
page again, and ends if the server names finitely many cursors, exactly if the cursor that it began with
and the ones that its full pages named before the last request are all different. -/
theorem run_ends_iff (conf : Conf) (s₀ : Shared) (c : Config Shared Proc) (i : Nat) (p : Proc)
    (reach : Reach (service conf).recording anyLabel ⟨s₀, []⟩ c) (at_i : c.procs[i]? = some p) :
    Ends conf p ↔ (cursors (requests conf.pageSize p.2)).Nodup := by
  obtain ⟨place, spends⟩ := stands reach at_i
  obtain ⟨chain, bound⟩ := at_within place
  constructor
  · intro ends
    exact (neverAgain_iff chain).mp ends.never_again
  · intro nodup
    refine ⟨(neverAgain_iff chain).mpr nodup, fun S named => ?_, ?_⟩
    · have few := length_cursors_le nodup named
      have requested : (requests conf.pageSize p.2).length ≤ 10 * (S.card + 1) := by omega
      have spent : p.2.length + rank p.1 ≤ 21 + 14 * (requests conf.pageSize p.2).length := spends
      exact ⟨requested, by omega⟩
    · by_cases waits : p.1 = .queued
      · exact Or.inl waits
      · cases ended : atEnd p.1 with
        | true => exact Or.inr (Or.inl rfl)
        | false => exact Or.inr (Or.inr (goes_on waits ended))

section Sample

def onePerPage : Conf := { pageSize := 1 }

def listing (cursor : Option String) : Reply where
  http := {
    statusCode := 200
    body := .ok (.object [("result", .object (
      ("items", .array [.object [("product_id", .int64 1)]]) ::
        (cursor.map fun id => ("last_id", Json.string id)).toList))]) }

def nameless : OzonPage := fetchPageCursor onePerPage.pageSize (listing none).http

section Round

variable {c₀ : Config Shared Proc} {s s' : Shared} {pc pc' : Pc} {past : Past} {v : RunVars}

private theorem turn (s' : Shared) (pc' : Pc)
    (reach : Reach (service onePerPage).recording anyLabel c₀ ⟨s, [(pc, past)]⟩)
    (stepped : (service onePerPage).step 0 s pc (listing none) = some (s', pc')) :
    Reach (service onePerPage).recording anyLabel c₀
      ⟨s', [(pc', past ++ [(pc, listing none)])]⟩ := by
  refine reach.step (l := .act 0 (listing none)) trivial ?_
  simp [Machine.next, Machine.recording, stepped]

def Before (n : Nat) (c : Config Shared Proc) : Prop :=
  ∃ s v past, c = ⟨s, [(.checkStop v, past)]⟩ ∧ s.ozonStop = false ∧ v.lastId = "" ∧
    requests onePerPage.pageSize past = List.replicate n ("", nameless)

private theorem round {n : Nat} {c : Config Shared Proc} (before : Before n c)
    (reach : Reach (service onePerPage).recording anyLabel c₀ c) :
    ∃ d, Reach (service onePerPage).recording anyLabel c₀ d ∧ Before (n + 1) d := by
  obtain ⟨s, v, past, rfl, goes, first, requested⟩ := before
  have fetched : runStep onePerPage 0 s (.fetchPage v) (listing none) =
      some (s, .fetchInfo { v with consecutiveFailures := 0 } nameless) := by
    have no_total : ¬ (v.cp.totalExpected = 0 ∧ nameless.total > 0) := by
      rintro ⟨-, total⟩
      exact absurd total (by decide)
    show (if v.cp.totalExpected = 0 ∧ nameless.total > 0 then _ else _) = _
    rw [if_neg no_total]
    rfl
  have asked := turn s (.fetchPage v) reach (by simp [service, triggerStep, runStep, goes])
  have answered := turn s (.fetchInfo { v with consecutiveFailures := 0 } nameless) asked
    (by simp [service, triggerStep, fetched])
  have with_info := turn _ _ answered rfl
  have with_prices := turn _ _ with_info rfl
  have stored := turn _ _ with_prices rfl
  have kept := turn _ _ stored rfl
  have saved := turn _ _ kept rfl
  have sent := turn _ _ saved rfl
  refine ⟨_, sent, _, _, _, rfl, goes, rfl, ?_⟩
  have kept_requests (w : Past) : requests onePerPage.pageSize (past ++ w) =
      requests onePerPage.pageSize past ++ requests onePerPage.pageSize w := List.filterMap_append
  simp only [List.append_assoc, kept_requests, requested, List.replicate_succ']
  rw [← first]
  rfl

end Round

private theorem begun :
    ∃ c, Reach (service onePerPage).recording anyLabel ⟨{}, []⟩ c ∧ Before 0 c := by
  have run : (service onePerPage).recording.run (fun _ _ => true) ⟨{}, []⟩
      (.spawn (.checkShutdown, []) :: List.replicate 11 (.act 0 (listing none))) = some _ := rfl
  exact ⟨_, reach_of_run (fun _ _ _ => trivial) run, _, _, _, rfl, rfl, rfl, rfl⟩

/-- Full pages without a cursor send the run back to the first page, as often as the server lists it. -/
theorem listed_without_end :
    (listing none).http.statusCode = 200 ∧ ∀ n, ∃ c p,
      Reach (service onePerPage).recording anyLabel ⟨{}, []⟩ c ∧ c.procs[0]? = some p ∧
      requests onePerPage.pageSize p.2 = List.replicate n ("", nameless) ∧
      (2 ≤ n → ¬ NeverAgain (requests onePerPage.pageSize p.2)) := by
  refine ⟨rfl, fun n => ?_⟩
  have rounds : ∃ c, Reach (service onePerPage).recording anyLabel ⟨{}, []⟩ c ∧ Before n c := by
    induction n with
    | zero => exact begun
    | succ n ih =>
        obtain ⟨c, reach, before⟩ := ih
        exact round before reach
  obtain ⟨c, reach, s, v, past, rfl, -, -, requested⟩ := rounds
  refine ⟨_, (.checkStop v, past), reach, rfl, requested, fun again never => ?_⟩
  rw [requested, NeverAgain, List.pairwise_replicate] at never
  rcases never with one | apart
  · omega
  · exact apart (by decide) rfl

theorem run_ends_iff_two_pages :
    ∃ p : Proc, p.1 = .finished ∧
      (requests onePerPage.pageSize p.2).map Prod.fst = ["", "a"] ∧ Ends onePerPage p := by
  obtain ⟨c, reach, test⟩ := reach_of_run_test (M := (service onePerPage).recording) (G := anyLabel)
    (g := fun _ _ => true) (c := ⟨{}, []⟩)
    (.spawn (.checkShutdown, []) :: List.replicate 20 (.act 0 (listing (some "a"))) ++
      List.replicate 7 (.act 0 {
        http := { statusCode := 200, body := .ok (.object []) } }))
    (fun c => c.procs[0]?.any fun p : Proc => decide (p.1 = .finished ∧
      (requests onePerPage.pageSize p.2).map Prod.fst = ["", "a"] ∧
      (cursors (requests onePerPage.pageSize p.2)).Nodup))
    (fun _ _ _ => trivial) (by decide)
  obtain ⟨p, at_0, test⟩ := (Option.any_eq_true _ _).mp test
  obtain ⟨ended, both, nodup⟩ := of_decide_eq_true test
  exact ⟨p, ended, both, (run_ends_iff onePerPage {} c 0 p reach at_0).mpr nodup⟩

end Sample

end Scand.Ozon.Cursors
