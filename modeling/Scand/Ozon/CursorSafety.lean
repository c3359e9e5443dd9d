/- path: Scand/Ozon/CursorSafety
   layer: results
   digest: An Ozon run moves its checkpoint past every page that it lists, so the cursor is safe
   exactly when no info request and no write of the run failed. -/

import Scand.Ozon.ProductRows

set_option autoImplicit false
set_option relaxedAutoImplicit false

namespace Scand.Ozon.CursorSafety

open Scand.Foundation.Interleaving
open Scand.Foundation.JsonValue (Json)
open Scand.Ozon.Client
open Scand.Ozon.ProductRows
open Scand.Ozon.Service

/-- The steps that a call has made, each with the reply it got. -/
abbrev Past := List (Pc × Reply)

def infoSucceeded (r : Reply) : Bool := (answeredItems r.http).isSome

def namedOf (page : OzonPage) (info : Reply) : List OzonProduct :=
  fetchInfoBatch (page.items.map OzonProduct.id) info.http

def detailsOf (page : OzonPage) (info prices : Reply) : List OzonProduct :=
  withPrices (namedOf page info) (fetchPricesStocksBatch (skusOf (namedOf page info)) prices.http)

def pageSteps (v : RunVars) (page : OzonPage) (info prices write : Reply) : Past :=
  [(.fetchInfo v page, info), (.fetchPrices v page (namedOf page info), prices),
    (.upsertPage v page (detailsOf page info prices), write)]

/-- The last steps read and stored a page that ends at the cursor of `v`. -/
def PageStored (v : RunVars) (before : Past) : Prop :=
  ∃ base v₀ page info prices write, before = base ++ pageSteps v₀ page info prices write ∧
    v.cp.lastCursor = page.lastId ∧ infoSucceeded info = true ∧
      committed (detailsOf page info prices) write = true

/-- The checkpoint in memory moves only past a stored page, and so does the one in `sync_state`. -/
def AdvanceSafe (before : Past) (e : Pc × Reply) : Prop :=
  match e.1 with
  | .setStore v _ => PageStored v before
  | .saveCheckpoint v more => e.2.dbOk = true →
      ∃ earlier kept, before = earlier ++ [(.setStore v more, kept)] ∧ PageStored v earlier
  | _ => True

def CursorSafe (past : Past) : Prop :=
  ∀ before e after, past = before ++ e :: after → AdvanceSafe before e

def failed (e : Pc × Reply) : Bool :=
  match e.1 with
  | .fetchInfo _ _ => !infoSucceeded e.2
  | .upsertPage _ _ details => !committed details e.2
  | _ => false

def noneFailed (past : Past) : Bool := past.all fun e => !failed e

def inPage : Pc → Bool
  | .fetchPrices _ _ _ | .upsertPage _ _ _ | .setStore _ _ | .saveCheckpoint _ _ => true
  | _ => false

section Past

variable {past : Past} {e : Pc × Reply}

theorem cursorSafe_snoc : CursorSafe (past ++ [e]) ↔ CursorSafe past ∧ AdvanceSafe past e := by
  constructor
  · intro safe
    refine ⟨fun before e' after split => safe before e' (after ++ [e]) ?_, safe past e [] rfl⟩
    rw [split, List.append_assoc, List.cons_append]
  · rintro ⟨safe, last⟩ before e' after split
    rcases List.eq_nil_or_concat after with rfl | ⟨front, final, rfl⟩
    · obtain ⟨rfl, equal⟩ := List.append_inj' split rfl
      cases equal
      exact last
    · have longer : past ++ [e] = (before ++ e' :: front) ++ [final] := by
        rw [split, List.concat_eq_append, List.append_assoc, List.cons_append]
      obtain ⟨front_eq, -⟩ := List.append_inj' longer rfl
      exact safe before e' front front_eq

@[simp] theorem noneFailed_append (past more : Past) :
    noneFailed (past ++ more) = (noneFailed past && noneFailed more) := List.all_append

def Settled (past : Past) : Prop := CursorSafe past ↔ noneFailed past = true

theorem settled_nil : Settled [] := by
  refine ⟨fun _ => rfl, fun _ before e after split => ?_⟩
  simp at split

def quiet (e : Pc × Reply) : Prop := (∀ before, AdvanceSafe before e) ∧ failed e = false

theorem Settled.quiet (settled : Settled past) (calm : quiet e) : Settled (past ++ [e]) := by
  unfold Settled at settled ⊢
  rw [cursorSafe_snoc, noneFailed_append, Bool.and_eq_true, settled]
  simp [calm.1 past, noneFailed, calm.2]

theorem quiet_of_outside {pc : Pc} {r : Reply} (outside : inPage pc = false)
    (no_info : ∀ v page, pc ≠ .fetchInfo v page) : quiet (pc, r) := by
  cases pc
  case fetchInfo v page => exact absurd rfl (no_info v page)
  case fetchPrices | upsertPage | setStore | saveCheckpoint => cases outside
  all_goals exact ⟨fun _ => trivial, rfl⟩

end Past

section Page

variable {base : Past} {v v₀ : RunVars} {page : OzonPage} {info prices write kept : Reply}
  {more : Bool}

theorem cursorSafe_pageSteps :
    CursorSafe (base ++ pageSteps v₀ page info prices write) ↔ CursorSafe base := by
  have grown : base ++ pageSteps v₀ page info prices write =
      ((base ++ [(.fetchInfo v₀ page, info)]) ++
        [(.fetchPrices v₀ page (namedOf page info), prices)]) ++
        [(.upsertPage v₀ page (detailsOf page info prices), write)] := by
    simp [pageSteps]
  rw [grown, cursorSafe_snoc, cursorSafe_snoc, cursorSafe_snoc]
  simp [AdvanceSafe]

theorem noneFailed_pageSteps :
    noneFailed (pageSteps v₀ page info prices write) =
      (infoSucceeded info && committed (detailsOf page info prices) write) := by
  simp [noneFailed, pageSteps, failed]

theorem pageStored_iff (cursor : v.cp.lastCursor = page.lastId) :
    PageStored v (base ++ pageSteps v₀ page info prices write) ↔
      noneFailed (pageSteps v₀ page info prices write) = true := by
  rw [noneFailed_pageSteps, Bool.and_eq_true]
  constructor
  · intro given
    obtain ⟨base', v', page', info', prices', write', split, -, answered, stored⟩ := given
    obtain ⟨-, same⟩ := List.append_inj' split rfl
    simp only [pageSteps, List.cons.injEq, Prod.mk.injEq, Pc.fetchInfo.injEq] at same
    obtain ⟨⟨⟨-, rfl⟩, rfl⟩, ⟨-, rfl⟩, ⟨-, rfl⟩, -⟩ := same
    exact ⟨answered, stored⟩
  · intro given
    obtain ⟨answered, stored⟩ := given
    exact ⟨base, v₀, page, info, prices, write, rfl, cursor, answered, stored⟩

theorem Settled.passed (settled : Settled base) (cursor : v.cp.lastCursor = page.lastId) :
    Settled (base ++ pageSteps v₀ page info prices write ++ [(.setStore v more, kept)]) := by
  unfold Settled at settled ⊢
  rw [cursorSafe_snoc, cursorSafe_pageSteps, settled, noneFailed_append, noneFailed_append,
    Bool.and_eq_true, Bool.and_eq_true]
  simp only [AdvanceSafe]
  rw [pageStored_iff cursor]
  simp [noneFailed, failed]

end Page

def Led : Pc → Past → Prop
  | .fetchPrices v page named, past => ∃ base info, Settled base ∧
      past = base ++ [(.fetchInfo v page, info)] ∧ named = namedOf page info
  | .upsertPage v page details, past => ∃ base info prices, Settled base ∧
      past = base ++ [(.fetchInfo v page, info), (.fetchPrices v page (namedOf page info), prices)] ∧
        details = detailsOf page info prices
  | .setStore v _, past => ∃ base v₀ page info prices write, Settled base ∧
      past = base ++ pageSteps v₀ page info prices write ∧ v.cp.lastCursor = page.lastId
  | .saveCheckpoint v more, past => Settled past ∧
      ∃ earlier kept, past = earlier ++ [(.setStore v more, kept)] ∧
        (noneFailed past = true → PageStored v earlier)
  | _, past => Settled past

theorem led_outside {pc : Pc} {past : Past} (outside : inPage pc = false) :
    Led pc past ↔ Settled past := by
  cases pc <;> first | exact Iff.rfl | cases outside

theorem Led.cursorSafe {pc : Pc} {past : Past} (led : Led pc past) (none : noneFailed past = true) :
    CursorSafe past := by
  cases pc
  case fetchPrices v page named =>
    obtain ⟨base, info, settled, rfl, -⟩ := led
    rw [noneFailed_append, Bool.and_eq_true] at none
    exact cursorSafe_snoc.mpr ⟨settled.mpr none.1, trivial⟩
  case upsertPage v page details =>
    obtain ⟨base, info, prices, settled, rfl, -⟩ := led
    rw [noneFailed_append, Bool.and_eq_true] at none
    rw [List.append_cons]
    exact cursorSafe_snoc.mpr ⟨cursorSafe_snoc.mpr ⟨settled.mpr none.1, trivial⟩, trivial⟩
  case setStore v more =>
    obtain ⟨base, v₀, page, info, prices, write, settled, rfl, -⟩ := led
    rw [noneFailed_append, Bool.and_eq_true] at none
    exact cursorSafe_pageSteps.mpr (settled.mpr none.1)
  case saveCheckpoint v more => exact led.1.mpr none
  all_goals exact (led : Settled past).mpr none

/-- How a step goes on with a page, or leads from one place outside a page to another. -/
inductive PageStep : Pc → Reply → Pc → Prop
  | info (v : RunVars) (page : OzonPage) (r : Reply) :
      PageStep (.fetchInfo v page) r (.fetchPrices v page (namedOf page r))
  | prices (v : RunVars) (page : OzonPage) (named : List OzonProduct) (r : Reply) :
      PageStep (.fetchPrices v page named) r
        (.upsertPage v page (withPrices named (fetchPricesStocksBatch (skusOf named) r.http)))
  | write (v : RunVars) (page : OzonPage) (details : List OzonProduct) (r : Reply) :
      PageStep (.upsertPage v page details) r (.setStore (advance v page details) page.hasMore)
  | keep (v : RunVars) (more : Bool) (r : Reply) :
      PageStep (.setStore v more) r (.saveCheckpoint v more)
  | save (v : RunVars) (more : Bool) (r : Reply) :
      PageStep (.saveCheckpoint v more) r (.sendRunning v more)
  | other {pc pc' : Pc} {r : Reply} : inPage pc = false → (∀ v page, pc ≠ .fetchInfo v page) →
      inPage pc' = false → PageStep pc r pc'

section Steps

variable {conf : Conf} {i : Nat} {s s' : Shared} {pc pc' : Pc} {r : Reply}

private theorem afterListing_outside (v : RunVars) (page : OzonPage) :
    inPage (afterListing v page) = false := by
  unfold afterListing
  split <;> rfl

private theorem trigger_pageStep (stepped : triggerStep i s pc r = some (s', pc')) :
    PageStep pc r pc' := by
  cases pc <;> simp only [triggerStep, Option.some.injEq, Prod.mk.injEq, reduceCtorEq] at stepped
  case claimRunning | submit =>
    split at stepped <;> cases stepped <;> exact .other rfl (fun _ _ => by simp) rfl
  all_goals
    obtain ⟨-, rfl⟩ := stepped
    refine .other rfl (fun _ _ => by simp) ?_
    try split
    all_goals rfl

private theorem run_pageStep (stepped : runStep conf i s pc r = some (s', pc')) :
    PageStep pc r pc' := by
  cases pc <;> simp only [runStep, Option.some.injEq, Prod.mk.injEq, reduceCtorEq] at stepped
  case fetchInfo v page =>
    obtain ⟨-, rfl⟩ := stepped
    exact .info v page r
  case fetchPrices v page named =>
    obtain ⟨-, rfl⟩ := stepped
    exact .prices v page named r
  case upsertPage v page details =>
    obtain ⟨-, rfl⟩ := stepped
    exact .write v page details r
  case setStore v more =>
    obtain ⟨-, rfl⟩ := stepped
    exact .keep v more r
  case saveCheckpoint v more =>
    obtain ⟨-, rfl⟩ := stepped
    exact .save v more r
  case queued =>
    split at stepped
    · split at stepped
      · cases stepped
        exact .other rfl (fun _ _ => by simp) rfl
      · cases stepped
    · cases stepped
  case fetchPage v =>
    split at stepped
    · cases stepped
      exact .other rfl (fun _ _ => by simp) rfl
    · split at stepped
      · cases stepped
        exact .other rfl (fun _ _ => by simp) rfl
      · cases stepped
        exact .other rfl (fun _ _ => by simp) (afterListing_outside _ _)
  case sendTotal v page =>
    obtain ⟨-, rfl⟩ := stepped
    exact .other rfl (fun _ _ => by simp) (afterListing_outside _ _)
  all_goals
    obtain ⟨-, rfl⟩ := stepped
    refine .other rfl (fun _ _ => by simp) ?_
    try split
    all_goals rfl

private theorem control_pageStep (stepped : controlStep s pc r = some (s', pc')) :
    PageStep pc r pc' := by
  cases pc <;> simp only [controlStep, Option.some.injEq, Prod.mk.injEq, reduceCtorEq] at stepped
  case requestShutdown =>
    split at stepped <;> cases stepped <;> exact .other rfl (fun _ _ => by simp) rfl
  all_goals
    obtain ⟨-, rfl⟩ := stepped
    refine .other rfl (fun _ _ => by simp) ?_
    try split
    all_goals rfl

theorem page_step (stepped : (service conf).step i s pc r = some (s', pc')) : PageStep pc r pc' := by
  rcases service_step stepped with trigger | run | control
  · exact trigger_pageStep trigger
  · exact run_pageStep run
  · exact control_pageStep control

end Steps

/-- Each step leads on from where the steps before it led. -/
theorem Led.next {pc pc' : Pc} {r : Reply} {past : Past} (led : Led pc past)
    (step : PageStep pc r pc') : Led pc' (past ++ [(pc, r)]) := by
  cases step with
  | info v page r => exact ⟨past, r, led, rfl, rfl⟩
  | prices v page named r =>
      obtain ⟨base, info, settled, rfl, rfl⟩ := led
      exact ⟨base, info, r, settled, by simp, rfl⟩
  | write v page details r =>
      obtain ⟨base, info, prices, settled, rfl, rfl⟩ := led
      exact ⟨base, v, page, info, prices, r, settled, by simp [pageSteps], rfl⟩
  | keep v more r =>
      obtain ⟨base, v₀, page, info, prices, write, settled, rfl, cursor⟩ := led
      refine ⟨settled.passed cursor, _, r, rfl, fun none => (pageStored_iff cursor).mpr ?_⟩
      rw [noneFailed_append, noneFailed_append, Bool.and_eq_true, Bool.and_eq_true] at none
      exact none.1.2
  | save v more r =>
      obtain ⟨settled, earlier, kept, split, stored⟩ := led
      show Settled _
      unfold Settled at settled ⊢
      rw [cursorSafe_snoc, settled, noneFailed_append, Bool.and_eq_true]
      refine ⟨fun both => ⟨both.1, rfl⟩, fun both => ⟨both.1, fun _ => ?_⟩⟩
      exact ⟨earlier, kept, split, stored both.1⟩
  | other outside no_info outside' =>
      rw [led_outside outside] at led
      exact (led_outside outside').mpr (led.quiet (quiet_of_outside outside no_info))

private theorem led_reach {conf : Conf} {s₀ : Shared} {c : Config Shared (Pc × Past)}
    (reach : Reach (service conf).recording anyLabel ⟨s₀, []⟩ c) : ∀ p ∈ c.procs, Led p.1 p.2 := by
  refine reach.invariant (I := fun c => ∀ p ∈ c.procs, Led p.1 p.2) (fun _ mem => nomatch mem)
    fun c d l led _ moved => ?_
  rcases next_cases moved with ⟨p, rfl, entry, rfl⟩ | ⟨i, r, p, s, q, rfl, at_i, stepped, rfl⟩
  · refine forall_mem_snoc led ?_
    obtain ⟨call, fresh⟩ := recording_entry entry
    have outside : inPage p.1 = false := by
      generalize p.1 = pc at call
      cases pc <;> first | rfl | cases call
    rw [fresh]
    exact (led_outside outside).mpr settled_nil
  · refine forall_mem_set led ?_
    obtain ⟨moved, grown⟩ := recording_step stepped
    rw [grown]
    exact (led p (List.mem_of_getElem? at_i)).next (page_step moved)

/-- In every interleaving, the cursor of a run is safe as long as none of its info requests and
writes failed, and outside the steps of a page it is safe only then. -/
theorem cursor_safe_iff (conf : Conf) (s₀ : Shared) (c : Config Shared (Pc × Past))
    (reach : Reach (service conf).recording anyLabel ⟨s₀, []⟩ c) (p : Pc × Past)
    (mem : p ∈ c.procs) :
    (noneFailed p.2 = true → CursorSafe p.2) ∧
      (inPage p.1 = false → (CursorSafe p.2 ↔ noneFailed p.2 = true)) := by
  have led := led_reach reach p mem
  exact ⟨led.cursorSafe, fun outside => (led_outside outside).mp led⟩

section Sample

def answer (body : Json) : Reply where
  http := { statusCode := 200, body := .ok body }

def listing : Reply :=
  answer (.object [("result", .object [("items", .array [.object [("product_id", .int64 1)]]),
    ("last_id", .string "c1")])])

def infoAnswer : Reply := answer (.object [("items", .array [.object [("id", .int64 1)]])])

/-- A triggered run that lists one page, gets `info` as its answer to the info request, and moves
both checkpoints. -/
def onePage (info : Reply) : List (Label (Pc × Past) Reply) :=
  .spawn (.checkShutdown, []) :: List.replicate 12 (.act 0 {}) ++ [.act 0 listing, .act 0 info] ++
    List.replicate 4 (.act 0 {})

def outsideAfter (failure : Bool) (c : Config Shared (Pc × Past)) : Bool :=
  match c.procs[0]? with
  | some p => !inPage p.1 && (noneFailed p.2 != failure)
  | none => false

private theorem outsideAfter_call {failure : Bool} {c : Config Shared (Pc × Past)}
    (test : outsideAfter failure c = true) :
    ∃ p ∈ c.procs, inPage p.1 = false ∧ noneFailed p.2 = !failure := by
  unfold outsideAfter at test
  split at test
  · rename_i p at_0
    simp only [Bool.and_eq_true, Bool.not_eq_true', bne_iff_ne, ne_eq] at test
    exact ⟨p, List.mem_of_getElem? at_0, test.1, Bool.eq_not.mpr test.2⟩
  · cases test

/-- A run whose info request is refused moves both checkpoints past the page all the same. -/
theorem unread_page_passed :
    ∃ c, Reach (service { pageSize := 100 }).recording anyLabel ⟨{}, []⟩ c ∧
      c.shared.store.map SyncCheckpoint.lastCursor = some "c1" ∧
      c.shared.syncState.map SyncStateRow.lastCursor = some "c1" ∧
      ∃ p ∈ c.procs, ¬ CursorSafe p.2 := by
  obtain ⟨c, reach, test⟩ := reach_of_run_test (M := (service { pageSize := 100 }).recording)
    (G := anyLabel) (g := fun _ _ => true) (c := ⟨{}, []⟩)
    (onePage { http := { statusCode := 500, body := .error "" } })
    (fun c => outsideAfter true c &&
      decide (c.shared.store.map SyncCheckpoint.lastCursor = some "c1" ∧
        c.shared.syncState.map SyncStateRow.lastCursor = some "c1"))
    (fun _ _ _ => trivial) (by decide)
  obtain ⟨outside, cursors⟩ := Bool.and_eq_true_iff.mp test
  obtain ⟨p, mem, place, failure⟩ := outsideAfter_call outside
  obtain ⟨memory, table⟩ := of_decide_eq_true cursors
  refine ⟨c, reach, memory, table, p, mem, fun safe => ?_⟩
  rw [((led_outside place).mp (led_reach reach p mem)).mp safe] at failure
  cases failure

theorem cursor_safe_iff_stored :
    ∃ c, Reach (service { pageSize := 100 }).recording anyLabel ⟨{}, []⟩ c ∧
      ∃ p ∈ c.procs, inPage p.1 = false ∧ noneFailed p.2 = true ∧ CursorSafe p.2 := by
  obtain ⟨c, reach, test⟩ := reach_of_run_test (M := (service { pageSize := 100 }).recording)
    (G := anyLabel) (g := fun _ _ => true) (c := ⟨{}, []⟩) (onePage infoAnswer)
    (outsideAfter false) (fun _ _ _ => trivial) (by decide +kernel)
  obtain ⟨p, mem, place, none⟩ := outsideAfter_call test
  exact ⟨c, reach, p, mem, place, none,
    ((cursor_safe_iff { pageSize := 100 } {} c reach p mem).2 place).mpr none⟩

end Sample

end Scand.Ozon.CursorSafety
