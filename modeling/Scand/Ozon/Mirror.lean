/- path: Scand/Ozon/Mirror
   layer: results
   digest: What the products table holds when an Ozon run ends with the status done: the products
   listed after the checkpoint that the run read, and what was stored before. -/

import Scand.Ozon.Exclusion
import Scand.Ozon.ProductRows

set_option autoImplicit false
set_option relaxedAutoImplicit false

namespace Scand.Ozon.Mirror

open Scand.Foundation.Interleaving
open Scand.Foundation.JsonValue (Json)
open Scand.Foundation.KeyedTable (Table)
open Scand.Ozon.Client
open Scand.Ozon.ProductRows
open Scand.Ozon.Service
open Scand.Ozon.Exclusion (executing claims claims_of_executing claims_next claims_reach
  ResetWhenIdle)

/-- What Ozon holds: the info data of its products, and the page that it lists after a cursor. -/
structure Catalogue where
  products : Table OzonProduct OzonProduct.id
  page : String → OzonPage
  answers : ∀ cursor, (page cursor).networkError = false

def infoPart (p : OzonProduct) : OzonProduct :=
  { p with price := .finite 0, currency := "", inStock := 0, relatedProducts := "" }

def Current (table : Table OzonProduct OzonProduct.id) (q : OzonProduct) : Prop :=
  ∃ row ∈ table.rows, infoPart row = infoPart q

def Mirrors (K : Catalogue) (table : Table OzonProduct OzonProduct.id) : Prop :=
  ∀ q ∈ K.products.rows, Current table q

def pageIds (page : OzonPage) : List String := page.items.map OzonProduct.id

/-- The ids on the page after a cursor and, as long as pages are full, on the pages after it. -/
inductive ListedFrom (K : Catalogue) : String → String → Prop
  | here {cursor id : String} : id ∈ pageIds (K.page cursor) → ListedFrom K cursor id
  | later {cursor id : String} : (K.page cursor).items ≠ [] → (K.page cursor).hasMore = true →
      ListedFrom K (K.page cursor).lastId id → ListedFrom K cursor id

/-- No reset stores into `ozon_running_` or `ozon_stop_` while a run is claimed. -/
def FlagsKept (c : Config Shared Pc) : Label Pc Reply → Prop
  | .spawn _ => True
  | .act i _ => (c.procs[i]? = some .resetRunning ∨ c.procs[i]? = some .resetStop) →
      c.shared.ozonRunning = false

def FitsAt (conf : Conf) (K : Catalogue) : Pc → Reply → Prop
  | .fetchPage v, r => fetchPageCursor conf.pageSize r.http = K.page v.lastId
  | .fetchInfo _ page, r => (fetchInfoBatch (pageIds page) r.http).Perm
      (K.products.rows.filter fun q => q.id ∈ pageIds page)
  | .upsertPage _ _ details, r => committed details r = true
  | _, _ => True

/-- The catalogue is fixed for call `i`: every reply that its run gets is one of the catalogue. -/
def Fixed (conf : Conf) (K : Catalogue) (i : Nat) (c : Config Shared Pc) : Label Pc Reply → Prop
  | .spawn _ => True
  | .act j r => i = j → ∀ pc ∈ c.procs[j]?, FitsAt conf K pc r

def checkpointRead (s : Shared) : Pc → Option SyncCheckpoint
  | .readStore => s.store
  | .loadCheckpoint => some (loadCheckpoint s true)
  | _ => none

def endsDone : Pc → Bool
  | .saveDone _ | .sendDone _ | .readDoneJob _ | .finishJob _ _ => true
  | _ => false

/-- A run of call `i` in the middle of any history: it reads the checkpoint `cp` with its step from
`c` to `e`, gets its replies from one catalogue, and stands at its end with `done` in `d`. -/
structure DoneRun (conf : Conf) (K : Catalogue) (s₀ : Shared) (i : Nat) (cp : SyncCheckpoint)
    (c e d : Config Shared Pc) : Prop where
  idle : s₀.ozonRunning = false
  history : Reach (service conf) FlagsKept ⟨s₀, []⟩ c
  reads : c.procs[i]?.bind (checkpointRead c.shared) = some cp
  first : (service conf).next c (.act i {}) = some e
  window : Reach (service conf) (fun c l => FlagsKept c l ∧ Fixed conf K i c l) e d
  ends : ∃ pc, d.procs[i]? = some pc ∧ endsDone pc = true

theorem listedFrom_iff {K : Catalogue} {cursor id : String} :
    ListedFrom K cursor id ↔ id ∈ pageIds (K.page cursor) ∨
      ((K.page cursor).items ≠ [] ∧ (K.page cursor).hasMore = true ∧
        ListedFrom K (K.page cursor).lastId id) := by
  constructor
  · intro given
    rcases given with on_page | ⟨full, more, later⟩
    · exact Or.inl on_page
    · exact Or.inr ⟨full, more, later⟩
  · intro given
    rcases given with on_page | ⟨full, more, later⟩
    · exact .here on_page
    · exact .later full more later

theorem not_listedFrom_empty {K : Catalogue} {cursor id : String}
    (empty : (K.page cursor).items = []) : ¬ ListedFrom K cursor id := by
  rw [listedFrom_iff]
  simp [pageIds, empty]

theorem infoPart_id {p q : OzonProduct} (same : infoPart p = infoPart q) : p.id = q.id := by
  have ids : (infoPart p).id = (infoPart q).id := congrArg OzonProduct.id same
  exact ids

@[simp] theorem infoPart_storedRow (p : OzonProduct) : infoPart (storedRow p) = infoPart p := rfl

theorem infoPart_withPrices (named prices : List OzonProduct) :
    (withPrices named prices).map infoPart = named.map infoPart := by
  rw [withPrices, List.map_map]
  refine List.map_congr_left fun p _ => ?_
  simp only [Function.comp_apply]
  split <;> rfl

def Named (K : Catalogue) (page : OzonPage) (named : List OzonProduct) : Prop :=
  ∀ q, q ∈ named ↔ q ∈ K.products.rows ∧ q.id ∈ pageIds page

theorem current_upsertProducts {K : Catalogue} {page : OzonPage} {named prices : List OzonProduct}
    {s : Shared} {r : Reply} (names : Named K page named)
    (ok : committed (withPrices named prices) r = true) {q : OzonProduct}
    (mem : q ∈ K.products.rows) :
    Current (upsertProducts s r.dbOk (withPrices named prices)).products q ↔
      Current s.products q ∨ q.id ∈ pageIds page := by
  have parts : ∀ part, part ∈ (withPrices named prices).map infoPart ↔ part ∈ named.map infoPart := by
    rw [infoPart_withPrices]
    exact fun _ => Iff.rfl
  constructor
  · intro given
    obtain ⟨row, stored, same⟩ := given
    rcases (mem_upsertProducts ok).mp stored with new | ⟨old, -⟩
    · obtain ⟨d, read, rfl⟩ := List.mem_map.mp new
      obtain ⟨p, named_p, equal⟩ := List.mem_map.mp ((parts _).mp (List.mem_map_of_mem read))
      rw [infoPart_storedRow, ← equal] at same
      exact Or.inr (infoPart_id same ▸ ((names p).mp named_p).2)
    · exact Or.inl ⟨row, old, same⟩
  · intro either
    by_cases on_page : q.id ∈ pageIds page
    · have named_q := (names q).mpr ⟨mem, on_page⟩
      obtain ⟨d, read, same⟩ := List.mem_map.mp ((parts _).mpr (List.mem_map_of_mem named_q))
      exact ⟨storedRow d, (mem_upsertProducts ok).mpr (Or.inl (List.mem_map_of_mem read)), same⟩
    · obtain ⟨row, old, same⟩ := either.resolve_right on_page
      refine ⟨row, (mem_upsertProducts ok).mpr (Or.inr ⟨old, fun read => on_page ?_⟩), same⟩
      rw [map_id_withPrices, infoPart_id same] at read
      obtain ⟨p, named_p, equal⟩ := List.mem_map.mp read
      exact equal ▸ ((names p).mp named_p).2

def Rest (K : Catalogue) : Pc → String → Prop
  | .saveRunning v, id | .checkStop v, id | .fetchPage v, id | .saveRetry v, id | .sendRetry v, id
  | .sendTotal v _, id | .fetchInfo v _, id | .fetchPrices v _ _, id | .upsertPage v _ _, id =>
      ListedFrom K v.lastId id
  | .setStore v more, id | .saveCheckpoint v more, id | .sendRunning v more, id =>
      more = true ∧ ListedFrom K v.lastId id
  | _, _ => False

def OnPage (K : Catalogue) : Pc → Prop
  | .sendTotal v page => page = K.page v.lastId
  | .fetchInfo v page => page = K.page v.lastId ∧ page.items ≠ []
  | .fetchPrices v page named => page = K.page v.lastId ∧ page.items ≠ [] ∧ Named K page named
  | .upsertPage v page details => page = K.page v.lastId ∧ page.items ≠ [] ∧
      ∃ named prices, Named K page named ∧ details = withPrices named prices
  | _ => True

/-- The run is between its checkpoint and an end with `done`. -/
def followed : Pc → Bool
  | .saveRunning _ | .checkStop _ | .fetchPage _ | .saveRetry _ | .sendRetry _ | .sendTotal _ _
  | .fetchInfo _ _ | .fetchPrices _ _ _ | .upsertPage _ _ _ | .setStore _ _ | .saveCheckpoint _ _
  | .sendRunning _ _ | .checkStopAtEnd _ => true
  | pc => endsDone pc

def leaves : Pc → Bool
  | .saveFailed _ | .sendFailed _ | .markStopped | .notifyStopped | .readJobToFail _ | .failJob _ _
  | .releaseRunning | .finished => true
  | _ => false

/-- The products to be current at the end are those that are current and those still to store. -/
def Underway (K : Catalogue) (target : OzonProduct → Prop)
    (table : Table OzonProduct OzonProduct.id) (rest : String → Prop) : Prop :=
  ∀ q ∈ K.products.rows, target q ↔ Current table q ∨ rest q.id

/-- Where a run stands that is to make the products of `target` current. -/
def Stage (K : Catalogue) (target : OzonProduct → Prop) (s : Shared) (pc : Pc) : Prop :=
  leaves pc = true ∨
    (followed pc = true ∧ OnPage K pc ∧
      (Underway K target s.products (Rest K pc) ∨
        (s.ozonStop = true ∧ ∃ v, pc = .checkStopAtEnd v)))

section Steps

variable {conf : Conf} {K : Catalogue} {target : OzonProduct → Prop} {i : Nat} {s s' : Shared}
  {pc pc' : Pc} {r : Reply}

theorem followed_executing (follows : followed pc = true) : executing pc = true := by
  cases pc <;> first | rfl | cases follows

/-- What a step keeps: the products outside the write of a page, and a stop request outside the
two stores that withdraw it. -/
def Keeps (s : Shared) (pc : Pc) (s' : Shared) : Prop :=
  ((∀ v page details, pc ≠ .upsertPage v page details) → s'.products = s.products) ∧
    (pc ≠ .clearStop → pc ≠ .resetStop → s.ozonStop = true → s'.ozonStop = true)

private theorem trigger_keeps (stepped : triggerStep i s pc r = some (s', pc')) :
    Keeps s pc s' := by
  unfold Keeps
  cases pc <;> simp only [triggerStep, Option.some.injEq, Prod.mk.injEq, reduceCtorEq] at stepped
  case claimRunning | submit => split at stepped <;> cases stepped <;> simp
  all_goals
    obtain ⟨rfl, -⟩ := stepped
    simp [resetCheckpoint, updateRuns]

private theorem run_keeps (stepped : runStep conf i s pc r = some (s', pc')) : Keeps s pc s' := by
  unfold Keeps
  cases pc <;> simp only [runStep, Option.some.injEq, Prod.mk.injEq, reduceCtorEq] at stepped
  case queued =>
    split at stepped
    · split at stepped
      · cases stepped
        simp
      · cases stepped
    · cases stepped
  case fetchPage v =>
    split at stepped
    · cases stepped
      simp
    · split at stepped <;> cases stepped <;> simp
  all_goals
    obtain ⟨rfl, -⟩ := stepped
    simp [Service.saveCheckpoint, sendProgress, upsertProducts, updateRuns]

private theorem control_keeps (stepped : controlStep s pc r = some (s', pc')) : Keeps s pc s' := by
  unfold Keeps
  cases pc <;> simp only [controlStep, Option.some.injEq, Prod.mk.injEq, reduceCtorEq] at stepped
  case requestShutdown => split at stepped <;> cases stepped <;> simp
  all_goals
    obtain ⟨rfl, -⟩ := stepped
    simp [updateCheckpointStatus, updateRuns]

theorem step_keeps (stepped : (service conf).step i s pc r = some (s', pc')) : Keeps s pc s' := by
  rcases service_step stepped with trigger | run | control
  · exact trigger_keeps trigger
  · exact run_keeps run
  · exact control_keeps control

theorem Stage.kept (stage : Stage K target s pc) (products : s'.products = s.products)
    (stop : s.ozonStop = true → s'.ozonStop = true) : Stage K target s' pc := by
  rcases stage with out | ⟨follows, page, under | ⟨stopped, at_end⟩⟩
  · exact Or.inl out
  · exact Or.inr ⟨follows, page, Or.inl (products ▸ under)⟩
  · exact Or.inr ⟨follows, page, Or.inr ⟨stop stopped, at_end⟩⟩

private theorem stage_on {table : Table OzonProduct OzonProduct.id} {rest : String → Prop}
    (under : Underway K target table rest) (follows : followed pc' = true) (page : OnPage K pc')
    (products : s'.products = table) (same : ∀ id, Rest K pc' id ↔ rest id) :
    Stage K target s' pc' :=
  Or.inr ⟨follows, page, Or.inl fun q mem => by rw [products, same, under q mem]⟩

private theorem stage_afterListing {v : RunVars}
    (under : Underway K target s.products (ListedFrom K v.lastId)) :
    Stage K target s (afterListing v (K.page v.lastId)) := by
  unfold afterListing
  split
  · rename_i empty
    rw [List.isEmpty_iff] at empty
    exact stage_on under rfl trivial rfl fun _ => ⟨False.elim, not_listedFrom_empty empty⟩
  · rename_i full
    rw [List.isEmpty_iff] at full
    exact stage_on under rfl ⟨rfl, full⟩ rfl fun _ => Iff.rfl

private theorem stage_afterWrite {v : RunVars} {named prices : List OzonProduct}
    (full : (K.page v.lastId).items ≠ []) (names : Named K (K.page v.lastId) named)
    (ok : committed (withPrices named prices) r = true)
    (under : Underway K target s.products (ListedFrom K v.lastId)) :
    Stage K target (upsertProducts s r.dbOk (withPrices named prices))
      (.setStore (advance v (K.page v.lastId) (withPrices named prices))
        (K.page v.lastId).hasMore) := by
  refine Or.inr ⟨rfl, trivial, Or.inl fun q mem => ?_⟩
  rw [under q mem, current_upsertProducts names ok mem, listedFrom_iff, or_assoc]
  simp [Rest, advance, full]

private theorem leaves_runStep (stepped : runStep conf i s pc r = some (s', pc'))
    (out : leaves pc = true) : leaves pc' = true := by
  cases pc <;> try (cases out; done)
  all_goals
    simp only [runStep, Option.some.injEq, Prod.mk.injEq, reduceCtorEq] at stepped
  all_goals
    obtain ⟨-, rfl⟩ := stepped
    try split
    all_goals rfl

private theorem stage_checkStopAtEnd {v : RunVars}
    (stepped : runStep conf i s (.checkStopAtEnd v) r = some (s', pc'))
    (under : Underway K target s.products (Rest K (.checkStopAtEnd v)) ∨ s.ozonStop = true) :
    Stage K target s' pc' := by
  simp only [runStep, Option.some.injEq, Prod.mk.injEq] at stepped
  obtain ⟨rfl, rfl⟩ := stepped
  split
  · exact Or.inl rfl
  · rename_i not_stopped
    have still := under.resolve_right not_stopped
    exact stage_on still rfl trivial rfl fun _ => Iff.rfl

private theorem stage_underway (stepped : runStep conf i s pc r = some (s', pc'))
    (fits : FitsAt conf K pc r) (follows : followed pc = true) (page : OnPage K pc)
    (under : Underway K target s.products (Rest K pc))
    (in_loop : ¬ ∃ v, pc = .checkStopAtEnd v) : Stage K target s' pc' := by
  cases pc <;> try (cases follows; done)
  all_goals
    simp only [runStep, Option.some.injEq, Prod.mk.injEq] at stepped
  case checkStopAtEnd v => exact absurd ⟨v, rfl⟩ in_loop
  case checkStop v =>
    obtain ⟨rfl, rfl⟩ := stepped
    split
    · rename_i stopped
      exact Or.inr ⟨rfl, trivial, Or.inr ⟨stopped, v, rfl⟩⟩
    · exact stage_on under rfl trivial rfl fun _ => Iff.rfl
  case fetchPage v =>
    rw [show fetchPageCursor conf.pageSize r.http = K.page v.lastId from fits,
      K.answers] at stepped
    simp only [Bool.false_eq_true, if_false] at stepped
    split at stepped
    · cases stepped
      exact stage_on under rfl rfl rfl fun _ => Iff.rfl
    · cases stepped
      exact stage_afterListing under
  case sendRetry v =>
    obtain ⟨rfl, rfl⟩ := stepped
    split
    · exact Or.inl rfl
    · exact stage_on under rfl trivial rfl fun _ => Iff.rfl
  case sendTotal v listed =>
    obtain ⟨rfl, rfl⟩ := stepped
    cases page
    exact stage_afterListing under
  case fetchInfo v listed =>
    obtain ⟨rfl, rfl⟩ := stepped
    refine stage_on under rfl ⟨page.1, page.2, fun q => ?_⟩ rfl fun _ => Iff.rfl
    exact (List.Perm.mem_iff fits).trans (by simp)
  case fetchPrices v listed named =>
    obtain ⟨rfl, rfl⟩ := stepped
    exact stage_on under rfl ⟨page.1, page.2.1, named, _, page.2.2, rfl⟩ rfl fun _ => Iff.rfl
  case upsertPage v listed details =>
    obtain ⟨rfl, full, named, prices, names, rfl⟩ := page
    obtain ⟨rfl, rfl⟩ := stepped
    exact stage_afterWrite full names fits under
  case sendRunning v more =>
    obtain ⟨rfl, rfl⟩ := stepped
    cases more
    · exact stage_on under rfl trivial rfl fun _ => by simp [Rest]
    · exact stage_on under rfl trivial rfl fun _ => by simp [Rest]
  case readDoneJob total =>
    obtain ⟨rfl, rfl⟩ := stepped
    split
    · exact Or.inl rfl
    · exact stage_on under rfl trivial rfl fun _ => Iff.rfl
  case finishJob total jobId =>
    obtain ⟨rfl, rfl⟩ := stepped
    exact Or.inl rfl
  all_goals
    obtain ⟨rfl, rfl⟩ := stepped
    exact stage_on under rfl trivial rfl fun _ => Iff.rfl

private theorem run_stage (stepped : runStep conf i s pc r = some (s', pc'))
    (fits : FitsAt conf K pc r) (stage : Stage K target s pc) : Stage K target s' pc' := by
  rcases stage with out | ⟨follows, page, under⟩
  · exact Or.inl (leaves_runStep stepped out)
  · by_cases at_end : ∃ v, pc = .checkStopAtEnd v
    · obtain ⟨v, rfl⟩ := at_end
      exact stage_checkStopAtEnd stepped (under.imp_right And.left)
    · have still := under.resolve_right fun stopping => at_end stopping.2
      exact stage_underway stepped fits follows page still at_end

theorem Stage.atEnd (stage : Stage K target s pc) (ends : endsDone pc = true) :
    ∀ q ∈ K.products.rows, target q ↔ Current s.products q := by
  intro q mem
  cases pc <;> try (cases ends; done)
  all_goals
    rcases stage with out | ⟨-, -, under | ⟨-, v, at_end⟩⟩
    · cases out
    · exact (under q mem).trans (or_iff_left id)
    · cases at_end

private theorem stage_runStep (stepped : (service conf).step i s pc r = some (s', pc'))
    (stage : Stage K target s pc) : runStep conf i s pc r = some (s', pc') := by
  have place : leaves pc = true ∨ followed pc = true := stage.imp_right And.left
  have not_trigger : triggerStep i s pc r = none := by
    cases pc <;> first | rfl | (rcases place with h | h <;> cases h)
  have not_control : controlStep s pc r = none := by
    cases pc <;> first | rfl | (rcases place with h | h <;> cases h)
  rcases service_step stepped with trigger | run | control
  · rw [not_trigger] at trigger
    cases trigger
  · exact run
  · rw [not_control] at control
    cases control

private theorem read_step {cp : SyncCheckpoint} (reads : checkpointRead s pc = some cp)
    (stepped : (service conf).step i s pc {} = some (s', pc')) :
    s' = s ∧ pc' = .saveRunning (enter cp) := by
  cases pc <;> try (cases reads; done)
  case readStore =>
    have stored : s.store = some cp := reads
    simp only [service, triggerStep, runStep, stored, Option.none_or, Option.some_or] at stepped
    cases stepped
    exact ⟨rfl, rfl⟩
  case loadCheckpoint =>
    cases reads
    cases stepped
    exact ⟨rfl, rfl⟩

end Steps

structure Window (K : Catalogue) (target : OzonProduct → Prop) (i : Nat)
    (c : Config Shared Pc) : Prop where
  count : TokenCount Shared.ozonRunning claims c
  stage : ∃ pc, c.procs[i]? = some pc ∧ Stage K target c.shared pc

private theorem resetWhenIdle {c : Config Shared Pc} {l : Label Pc Reply} (kept : FlagsKept c l) :
    ResetWhenIdle c l := by
  rintro i r rfl at_reset
  exact kept (Or.inl at_reset)

theorem Window.next {conf : Conf} {K : Catalogue} {target : OzonProduct → Prop} {i : Nat}
    {c d : Config Shared Pc} {l : Label Pc Reply} (window : Window K target i c)
    (kept : FlagsKept c l) (fixed : Fixed conf K i c l)
    (moved : (service conf).next c l = some d) : Window K target i d := by
  refine ⟨claims_next window.count (resetWhenIdle kept) moved, ?_⟩
  obtain ⟨pc, at_i, stage⟩ := window.stage
  rcases next_cases moved with ⟨p, rfl, -, rfl⟩ | ⟨j, r, p, s', q, rfl, at_j, stepped, rfl⟩
  · exact ⟨pc, getElem?_snoc_kept at_i, stage⟩
  · by_cases same : i = j
    · subst same
      obtain rfl := Option.some.inj (at_i.symm.trans at_j)
      refine ⟨q, getElem?_set_here at_i, run_stage (stage_runStep stepped stage) ?_ stage⟩
      exact fixed rfl pc at_i
    · refine ⟨pc, by simp [Ne.symm same, at_i], ?_⟩
      by_cases follows : followed pc = true
      · -- the run holds the token, so no other call is executing or claims it
        have mine := claims_of_executing (followed_executing follows)
        have running := window.count.held at_i mine
        have single : c.procs.countP claims ≤ 1 := window.count.le.trans (Bool.toNat_le _)
        have other : claims p = false := by
          by_contra claimed
          rw [Bool.not_eq_false] at claimed
          exact same (eq_of_countP_le_one single at_i at_j mine claimed)
        obtain ⟨products, stop⟩ := step_keeps stepped
        refine stage.kept (products ?_) (stop ?_ ?_)
        · rintro v page details rfl
          cases other
        · rintro rfl
          cases other
        · rintro rfl
          rw [kept (Or.inr at_j)] at running
          cases running
      · exact Or.inl (stage.resolve_right fun ⟨follows', _⟩ => follows follows')

/-- At the end of a run with `done`, the table holds the catalogue exactly when each of its products
is listed after the checkpoint that the run read, or was current already. -/
theorem done_mirrors_iff (conf : Conf) (K : Catalogue) (s₀ : Shared) (i : Nat) (cp : SyncCheckpoint)
    (c e d : Config Shared Pc) (run : DoneRun conf K s₀ i cp c e d) :
    Mirrors K d.shared.products ↔
      ∀ q ∈ K.products.rows, ListedFrom K cp.lastCursor q.id ∨ Current c.shared.products q := by
  let target q := ListedFrom K cp.lastCursor q.id ∨ Current c.shared.products q
  have entered : Window K target i e := by
    obtain ⟨pc, s, pc', at_i, stepped, rfl⟩ := next_act run.first
    have reads : checkpointRead c.shared pc = some cp := by simpa [at_i] using run.reads
    obtain ⟨rfl, rfl⟩ := read_step reads stepped
    have count := claims_reach run.idle (run.history.mono fun _ _ => resetWhenIdle)
    refine ⟨claims_next count ?_ run.first, .saveRunning (enter cp), ?_, ?_⟩
    · intro j r label at_reset
      cases label
      obtain rfl := Option.some.inj (at_i.symm.trans at_reset)
      cases reads
    · simp [(List.getElem?_eq_some_iff.mp at_i).1]
    · exact Or.inr ⟨rfl, trivial, Or.inl fun q _ => or_comm⟩
  have window := run.window.invariant entered fun _ _ _ window guard moved =>
    window.next guard.1 guard.2 moved
  obtain ⟨pc, at_i, ends⟩ := run.ends
  obtain ⟨pc', at_i', stage⟩ := window.stage
  obtain rfl := Option.some.inj (at_i.symm.trans at_i')
  exact forall₂_congr fun q mem => (stage.atEnd ends q mem).symm

section Sample

instance : ∀ c l, Decidable (FlagsKept c l)
  | _, .spawn _ => .isTrue trivial
  | _, .act _ _ => inferInstanceAs (Decidable (_ → _))

instance (conf : Conf) (K : Catalogue) : ∀ pc r, Decidable (FitsAt conf K pc r) := by
  intro pc r
  unfold FitsAt
  split <;> infer_instance

instance (conf : Conf) (K : Catalogue) (i : Nat) : ∀ c l, Decidable (Fixed conf K i c l)
  | _, .spawn _ => .isTrue trivial
  | _, .act _ _ => inferInstanceAs (Decidable (_ → _))

def answer (body : Json) : Reply where
  http := { statusCode := 200, body := .ok body }

def oneProduct (name : String) : Catalogue where
  products := ⟨[{ id := "1", name := name }], List.nodup_singleton _⟩
  page cursor := if cursor = "" then { items := [{ id := "1" }], lastId := "c1" } else {}
  answers cursor := by split <;> rfl

def listing : Reply :=
  answer (.object [("result", .object [("items", .array [.object [("product_id", .int64 1)]]),
    ("last_id", .string "c1")])])

def infoAnswer (name : String) : Reply :=
  answer (.object [("items", .array [.object [("id", .int64 1), ("name", .string name)]])])

def steps (i n : Nat) : List (Label Pc Reply) := List.replicate n (.act i {})

def runAndTrigger (name : String) : List (Label Pc Reply) :=
  .spawn .checkShutdown :: steps 0 12 ++ [.act 0 listing, .act 0 (infoAnswer name)] ++
    steps 0 11 ++ .spawn .checkShutdown :: steps 1 8

def secondRun : List (Label Pc Reply) := steps 1 2 ++ [.act 1 (answer (.object []))] ++ steps 1 1

private theorem doneRun_of_run (conf : Conf) (K : Catalogue) (i : Nat)
    (before during : List (Label Pc Reply)) (test : SyncCheckpoint → Config Shared Pc → Bool)
    (h : (((service conf).run (fun c l => decide (FlagsKept c l)) ⟨{}, []⟩ before).bind fun c =>
      ((service conf).next c (.act i {})).bind fun e =>
        ((service conf).run (fun c l => decide (FlagsKept c l ∧ Fixed conf K i c l)) e during).map
          fun d => (c.procs[i]?.bind (checkpointRead c.shared)).any (test · d) &&
            d.procs[i]?.any endsDone) = some true) :
    ∃ cp c e d, DoneRun conf K {} i cp c e d ∧ test cp d = true := by
  obtain ⟨c, history, h⟩ := Option.bind_eq_some_iff.mp h
  obtain ⟨e, first, h⟩ := Option.bind_eq_some_iff.mp h
  obtain ⟨d, window, h⟩ := Option.map_eq_some_iff.mp h
  obtain ⟨read, ends⟩ := Bool.and_eq_true_iff.mp h
  obtain ⟨cp, reads, passed⟩ := (Option.any_eq_true _ _).mp read
  obtain ⟨pc, at_i, done⟩ := (Option.any_eq_true _ _).mp ends
  exact ⟨cp, c, e, d, {
    idle := rfl
    history := reach_of_run (fun _ _ => of_decide_eq_true) history
    reads := reads
    first := first
    window := reach_of_run (fun _ _ => of_decide_eq_true) window
    ends := ⟨pc, at_i, done⟩ }, passed⟩

theorem oneProduct_listed (name : String) :
    ∀ q ∈ (oneProduct name).products.rows, ListedFrom (oneProduct name) "" q.id := by
  intro q mem
  obtain rfl := List.mem_singleton.mp mem
  exact .here (by simp [oneProduct, pageIds])

/-- After a completed run, a run over the edited catalogue ends with `done` and leaves the old name,
although the whole catalogue is listed from the start. -/
theorem edited_product_stale :
    ∃ cp c e d, DoneRun { pageSize := 100 } (oneProduct "new") {} 1 cp c e d ∧
      (∀ q ∈ (oneProduct "new").products.rows, ListedFrom (oneProduct "new") "" q.id) ∧
        ¬ Mirrors (oneProduct "new") d.shared.products := by
  obtain ⟨cp, c, e, d, run, stale⟩ := doneRun_of_run { pageSize := 100 } (oneProduct "new") 1
    (runAndTrigger "old") secondRun
    (fun _ d => d.shared.products.rows.all fun row => row.name = "old") (by decide +kernel)
  refine ⟨cp, c, e, d, run, oneProduct_listed "new", fun mirrors => ?_⟩
  obtain ⟨row, stored, same⟩ := mirrors { id := "1", name := "new" } (List.mem_singleton_self _)
  have old : row.name = "old" := by simpa using List.all_eq_true.mp stale row stored
  have new : row.name = "new" := congrArg OzonProduct.name same
  exact absurd (old.symm.trans new) (by decide)

theorem done_mirrors_first :
    ∃ cp c e d, DoneRun { pageSize := 100 } (oneProduct "old") {} 0 cp c e d ∧
      Mirrors (oneProduct "old") d.shared.products := by
  obtain ⟨cp, c, e, d, run, start⟩ := doneRun_of_run { pageSize := 100 } (oneProduct "old") 0
    (.spawn .checkShutdown :: steps 0 9)
    (steps 0 2 ++ [.act 0 listing, .act 0 (infoAnswer "old")] ++ steps 0 6)
    (fun cp _ => cp.lastCursor = "") (by decide +kernel)
  refine ⟨cp, c, e, d, run, ?_⟩
  refine (done_mirrors_iff { pageSize := 100 } _ {} 0 cp c e d run).mpr fun q mem => Or.inl ?_
  rw [of_decide_eq_true start]
  exact oneProduct_listed "old" q mem

end Sample

end Scand.Ozon.Mirror
