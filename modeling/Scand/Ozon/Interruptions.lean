/- path: Scand/Ozon/Interruptions
   layer: results
   digest: A sync that is interrupted and resumed any number of times ends with done where a single
   uninterrupted one does: with the same products and the same checkpoint. -/

import Scand.Ozon.ResumePoints

set_option autoImplicit false
set_option relaxedAutoImplicit false

namespace Scand.Ozon.Interruptions

open Scand.Foundation.Interleaving
open Scand.Foundation.JsonValue (HttpReply Json)
open Scand.Foundation.Overlay
open Scand.Foundation.Restarts
open Scand.Ozon.AutoResume (entry_free holds place_balanced)
open Scand.Ozon.Client
open Scand.Ozon.Exclusion (claims executing claims_of_executing)
open Scand.Ozon.Mirror (step_keeps)
open Scand.Ozon.Pages
open Scand.Ozon.ResumePoints
open Scand.Ozon.Service
open Scand.Ozon.Startup

section Guards

variable (conf : Conf) (K : PagedCatalogue conf.pageSize)

def Served (c : Config Shared Place) : Label Place Reply → Prop
  | .spawn _ => True
  | .act i r => ∀ p ∈ c.procs[i]?, ∀ pc ∈ p.pc?, ServedAt conf K c.shared pc r

/-- A single sync next to `resume_on_start`, with every listing answered. -/
def Uninterrupted (c : Config Shared Place) : Label Place Reply → Prop
  | .spawn p => p = .call .checkShutdown ∧ c.procs.length = 1
  | .act i r => Served conf K c (.act i r) ∧ ∀ p ∈ c.procs[i]?, ∀ v, p.pc? = some (.fetchPage v) →
      (fetchPageCursor conf.pageSize r.http).networkError = false

end Guards

/-- A restart: it marks the interrupted runs, and comes to `resume_on_start`. -/
def restart (s : Shared) : Config Shared Place := ⟨rebooted s, [.markPulls]⟩

/-- A run saves `done` with the decision from `c` to `d`. -/
def SavesDone (conf : Conf) (c : Config Shared Place) (l : Label Place Reply)
    (d : Config Shared Place) : Prop :=
  (starting conf).next c l = some d ∧
    ∃ i r p v, l = .act i r ∧ c.procs[i]? = some p ∧ p.pc? = some (.saveDone v)

section Runs

variable {conf : Conf} {K : PagedCatalogue conf.pageSize} {T₀ : Set OzonProduct}
  {c d : Config Shared Place} {l : Label Place Reply}

structure Known (K : PagedCatalogue conf.pageSize) (T₀ : Set OzonProduct)
    (c : Config Shared Place) : Prop where
  count : TokenCount Shared.ozonRunning holds c
  safe : Safe K T₀ c.shared
  places : ∀ p ∈ c.procs, ∀ pc ∈ p.pc?, Stands K T₀ c.shared pc

private theorem known_count (known : Known K T₀ c) (served : Served conf K c l)
    (next : (starting conf).next c l = some d) : TokenCount Shared.ozonRunning holds d := by
  refine known.count.next next (fun _ => entry_free) fun i r p s q label at_i stepped => ?_
  refine place_balanced (known.count.held at_i) (fun reset => ?_) stepped
  subst label
  exact (served p at_i .resetRunning reset).single (Or.inl rfl)

private theorem known_call {i : Nat} {r : Reply} {p : Place} {pc pc' : Pc} {s' : Shared}
    (known : Known K T₀ c) (at_i : c.procs[i]? = some p) (here : p.pc? = some pc)
    (served : ServedAt conf K c.shared pc r)
    (moved : (service conf).step i c.shared pc r = some (s', pc')) :
    Safe K T₀ s' ∧ Stands K T₀ s' pc' ∧
      ∀ j w, i ≠ j → c.procs[j]? = some w → ∀ place ∈ w.pc?, Stands K T₀ s' place := by
  have single : c.procs.countP holds ≤ 1 := known.count.le.trans (Bool.toNat_le _)
  have apart : claims pc = true → ∀ j w, i ≠ j → c.procs[j]? = some w → ∀ place ∈ w.pc?,
      executing place = false := by
    intro mine j w other at_j place at_w
    by_contra runs
    rw [Bool.not_eq_false] at runs
    rw [Option.mem_def] at at_w
    refine other (eq_of_countP_le_one single at_i at_j ?_ ?_)
    · simp [holds, here, mine]
    · simp [holds, at_w, claims_of_executing runs]
  by_cases runs : executing pc = true
  · have stepped : runStep conf i c.shared pc r = some (s', pc') := by
      rcases service_step moved with trigger | run | control
      · cases pc <;> first | (cases runs; done) | cases trigger
      · exact run
      · cases pc <;> first | (cases runs; done) | cases control
    have stands := known.places p (List.mem_of_getElem? at_i) pc here
    obtain ⟨safe, stands'⟩ := run_stands stepped served known.safe stands
    exact ⟨safe, stands', fun j w other at_j place at_w =>
      stands_idle (apart (claims_of_executing runs) j w other at_j place at_w)⟩
  · rw [Bool.not_eq_true] at runs
    have beside := step_beside runs moved
    refine ⟨known.safe.beside beside, stands_outside beside.place.1 beside.place.2,
      fun j w other at_j place at_w => ?_⟩
    by_cases busy : executing place = true
    · -- the other call holds the token, so this one neither clears its stop nor resets it
      have held : holds w = true := by
        rw [Option.mem_def] at at_w
        simp [holds, at_w, claims_of_executing busy]
      refine (known.places w (List.mem_of_getElem? at_j) place at_w).beside beside
        ((step_keeps moved).2 ?_ ?_)
      · rintro rfl
        rw [apart rfl j w other at_j place at_w] at busy
        cases busy
      · rintro rfl
        have idle := served.single (Or.inr rfl)
        rw [known.count.held at_j held] at idle
        cases idle
    · exact stands_idle (Bool.not_eq_true _ ▸ busy)

private theorem stands_noted {s : Shared} {pc : Pc} (stands : Stands K T₀ s pc)
    (runs : List Store.SyncRuns.SyncRun) : Stands K T₀ { s with syncRuns := runs } pc := by
  refine ⟨stands.load, fun v here => ?_⟩
  obtain ⟨n, working, in_step, on_page⟩ := stands.runs v here
  refine ⟨n, ⟨working.bound, working.vars, working.cp, working.leads, working.row⟩, ?_, ?_⟩
  · cases pc <;> exact in_step
  · cases pc <;> exact on_page

theorem Known.next (known : Known K T₀ c) (served : Served conf K c l)
    (next : (starting conf).next c l = some d) : Known K T₀ d := by
  have count := known_count known served next
  rcases next_cases next with ⟨p, rfl, entry, rfl⟩ | ⟨i, r, p, s', q, rfl, at_i, stepped, rfl⟩
  · refine ⟨count, known.safe, forall_mem_snoc known.places fun pc here => ?_⟩
    have free := entry_free entry
    refine stands_idle ?_
    by_contra runs
    rw [Bool.not_eq_false] at runs
    rw [Option.mem_def] at here
    simp [holds, here, claims_of_executing runs] at free
  · rcases starting_places stepped with ⟨pc, pc', moved, here, there⟩ | ⟨⟨runs, rfl⟩, -, calm⟩
    · obtain ⟨safe, own, others⟩ := known_call known at_i here (served p at_i pc here) moved
      refine ⟨count, safe, fun w mem place at_w => ?_⟩
      rcases mem_set_cases mem with rfl | ⟨j, apart, at_j⟩
      · obtain rfl := Option.some.inj (there.symm.trans at_w)
        exact own
      · exact others j w apart at_j place at_w
    · refine ⟨count, ⟨known.safe.again, known.safe.row, known.safe.memory⟩, ?_⟩
      refine forall_mem_set (fun p mem pc here => stands_noted (known.places p mem pc here) runs) ?_
      intro pc here
      rcases calm pc here with rfl | rfl <;> exact stands_idle rfl

theorem known_restart {s : Shared} (again : Leads OzonProduct.id K.batches T₀ (stored s) 0)
    (row : Good K T₀ (stored s) (keptPoint s.syncState)) : Known K T₀ (restart s) := by
  refine ⟨rfl, ⟨again, row, fun _ none_left => nomatch none_left⟩, fun p mem pc here => ?_⟩
  obtain rfl := List.mem_singleton.mp mem
  cases here

variable {s₀ : Shared}

theorem known_lives (empty : keptPoint s₀.syncState = ("", 0, 0))
    (lives : Lives (starting conf) (Served conf K) restart (restart s₀) c) :
    Known K (stored s₀) c := by
  have again : Leads OzonProduct.id K.batches (stored s₀) (stored s₀) 0 := Leads.start
  have row : Good K (stored s₀) (stored s₀) (keptPoint s₀.syncState) :=
    ⟨0, Nat.zero_le _, empty.trans K.point_zero.symm, again⟩
  exact lives.invariant (known_restart again row) (fun _ _ _ known served next =>
    known.next served next) fun _ known => known_restart known.safe.again known.safe.row

theorem Known.done (known : Known K T₀ c) (served : Served conf K c l)
    (saves : SavesDone conf c l d) :
    stored d.shared = overlays OzonProduct.id T₀ K.batches ∧
      d.shared.syncState.map rowPoint = some (K.point K.pages) := by
  obtain ⟨next, i, r, p, v, rfl, at_i, here⟩ := saves
  obtain ⟨n, working, -, rfl⟩ :=
    (known.places p (List.mem_of_getElem? at_i) _ here).runs v rfl
  have database := (served p at_i _ here).database
  have table : stored c.shared = overlays OzonProduct.id T₀ K.batches := by
    have leads := working.leads
    rw [← K.length_batches] at leads
    exact leads.finish
  obtain ⟨p', s', q, at_i', stepped, rfl⟩ := next_act next
  obtain rfl := Option.some.inj (at_i.symm.trans at_i')
  have saved : s' = saveCheckpoint c.shared r.dbOk v.cp := by
    cases p with
    | call pc | resumed pc =>
        cases here
        cases stepped
        rfl
    | markPulls | markOzon | resumeOnStart | checkUnfinished => cases here
  rw [saved, database]
  exact ⟨table, congrArg some working.cp⟩

end Runs

section Single

variable {conf : Conf} {K : PagedCatalogue conf.pageSize} {s₀ s s' : Shared} {pc pc' : Pc}
  {v : RunVars} {n : Nat}

/-- A single uninterrupted sync saves `done` and leaves `f`. -/
def SingleSync (conf : Conf) (K : PagedCatalogue conf.pageSize) (s₀ : Shared)
    (f : Config Shared Place) : Prop :=
  ∃ e m, Reach (starting conf) (Uninterrupted conf K) (restart s₀) e ∧ Uninterrupted conf K e m ∧
    SavesDone conf e m f

def Comes (K : PagedCatalogue conf.pageSize) (s₀ s : Shared) (pc : Pc) : Prop :=
  Reach (starting conf) (Uninterrupted conf K) (restart s₀) ⟨s, [.resumeOnStart, .call pc]⟩

private theorem uninterrupted_act {r : Reply} (served : ServedAt conf K s pc r)
    (answered : ∀ v, pc = .fetchPage v →
      (fetchPageCursor conf.pageSize r.http).networkError = false) :
    Uninterrupted conf K ⟨s, [.resumeOnStart, .call pc]⟩ (.act 1 r) := by
  constructor
  · intro p here pc' at_pc
    cases here
    cases at_pc
    exact served
  · intro p here v at_fetch
    cases here
    exact answered v (Option.some.inj at_fetch)

private theorem uninterrupted_start {p : Place} {r : Reply} (outside : p.pc? = none) :
    Uninterrupted conf K ⟨s, [p]⟩ (.act 0 r) := by
  constructor
  · intro q here pc at_pc
    cases here
    cases outside.symm.trans at_pc
  · intro q here v at_fetch
    cases here
    cases outside.symm.trans at_fetch

theorem Comes.step {r : Reply} (comes : Comes K s₀ s pc) (served : ServedAt conf K s pc r)
    (answered : ∀ v, pc = .fetchPage v →
      (fetchPageCursor conf.pageSize r.http).networkError = false)
    (stepped : (service conf).step 1 s pc r = some (s', pc')) : Comes K s₀ s' pc' := by
  refine Reach.step comes (uninterrupted_act served answered) ?_
  simp [Machine.next, starting, stepped]

def local? : Pc → Bool
  | .fetchPage _ | .fetchInfo _ _ | .fetchPrices _ _ _ | .resetRunning | .resetStop => false
  | _ => true

private theorem served_local (inside : local? pc = true) : ServedAt conf K s pc {} := by
  refine ⟨rfl, ?_, ?_⟩
  · rintro (rfl | rfl) <;> cases inside
  · cases pc <;> trivial

theorem Comes.next (comes : Comes K s₀ s pc) (inside : local? pc = true)
    (stepped : (service conf).step 1 s pc {} = some (s', pc')) : Comes K s₀ s' pc' := by
  refine comes.step (served_local inside) (fun v here => ?_) stepped
  rw [here] at inside
  cases inside

theorem comes_checkStop (empty : keptPoint s₀.syncState = ("", 0, 0)) :
    ∃ s v, Comes K s₀ s (.checkStop v) ∧ s.ozonStop = false ∧ v.lastId = K.cursor 0 := by
  let marked := markInterrupted (markInterrupted (rebooted s₀) true "inventory_pull") true "ozon"
  have started : Reach (starting conf) (Uninterrupted conf K) (restart s₀)
      ⟨marked, [.resumeOnStart]⟩ := by
    have pulls : Reach (starting conf) (Uninterrupted conf K) (restart s₀)
        ⟨markInterrupted (rebooted s₀) true "inventory_pull", [.markOzon]⟩ :=
      Reach.step (l := .act 0 {}) .refl (uninterrupted_start rfl) rfl
    exact Reach.step (l := .act 0 {}) pulls (uninterrupted_start rfl) rfl
  have called : Comes K s₀ marked .checkShutdown :=
    Reach.step (l := .spawn (.call .checkShutdown)) started ⟨rfl, rfl⟩ rfl
  have claimed := ((called.next rfl rfl).next rfl rfl).next rfl rfl
  have submitted := (((claimed.next rfl rfl).next rfl rfl).next rfl rfl).next rfl rfl
  have reads := ((submitted.next rfl rfl).next rfl rfl).next rfl rfl
  refine ⟨_, _, reads.next rfl rfl, rfl, ?_⟩
  rw [K.first]
  exact congrArg Prod.fst ((cpPoint_loadCheckpoint (r := {}) rfl).trans empty)

private theorem single_ends (comes : Comes K s₀ s (.checkStopAtEnd v)) (goes : s.ozonStop = false) :
    ∃ f, SingleSync conf K s₀ f := by
  let last : RunVars := { v with cp := { v.cp with lastStatus := "done" } }
  have saves : Comes K s₀ s (.saveDone last) := by
    refine comes.next rfl ?_
    simp [service, triggerStep, runStep, goes, last]
  have undisturbed :
      Uninterrupted conf K ⟨s, [.resumeOnStart, .call (.saveDone last)]⟩ (.act 1 {}) :=
    uninterrupted_act (served_local rfl) fun _ here => by cases here
  exact ⟨_, _, .act 1 {}, saves, undisturbed, rfl, 1, {}, _, _, rfl, rfl, rfl⟩

private theorem comes_afterListing (comes : Comes K s₀ s (.checkStop v)) (goes : s.ozonStop = false)
    (at_n : v.lastId = K.cursor n) (le : n ≤ K.pages) :
    ∃ s v, Comes K s₀ s (afterListing v (K.pageAt n)) ∧ s.ozonStop = false := by
  have fetches : Comes K s₀ s (.fetchPage v) := by
    refine comes.next rfl ?_
    simp [service, triggerStep, runStep, goes]
  let r : Reply := { http := K.listing (K.cursor n) }
  have page : fetchPageCursor conf.pageSize r.http = K.pageAt n := rfl
  have answered : (K.pageAt n).networkError = false := K.answers n le
  have served : ServedAt conf K s (.fetchPage v) r := by
    refine ⟨rfl, (by rintro (h | h) <;> cases h), Or.inr ?_⟩
    rw [page, at_n]
    rfl
  have stepped : ∃ v' pc', (service conf).step 1 s (.fetchPage v) r = some (s, pc') ∧
      (pc' = .sendTotal v' (K.pageAt n) ∨ pc' = afterListing v' (K.pageAt n)) := by
    simp only [service, triggerStep, runStep, page, answered, Option.none_or]
    simp only [Bool.false_eq_true, if_false]
    split
    · exact ⟨_, _, rfl, Or.inl rfl⟩
    · exact ⟨_, _, rfl, Or.inr rfl⟩
  obtain ⟨v', pc', stepped, rfl | rfl⟩ := stepped
  · have sends := fetches.step served (fun _ _ => answered) stepped
    exact ⟨_, _, sends.next rfl rfl, goes⟩
  · exact ⟨_, _, fetches.step served (fun _ _ => answered) stepped, goes⟩

private theorem comes_sendRunning (comes : Comes K s₀ s (.fetchInfo v (K.pageAt n)))
    (goes : s.ozonStop = false) (lt : n < K.pages) :
    ∃ s v, Comes K s₀ s (.sendRunning v (K.pageAt n).hasMore) ∧ s.ozonStop = false ∧
      v.lastId = K.cursor (n + 1) := by
  have named : Comes K s₀ s (.fetchPrices v (K.pageAt n) (K.named (K.pageAt n))) := by
    refine comes.step
      (r := { http := K.info ((K.pageAt n).items.map OzonProduct.id) })
      ⟨rfl, (by rintro (h | h) <;> cases h), rfl⟩ (fun _ here => by cases here) rfl
  have priced : Comes K s₀ s (.upsertPage v (K.pageAt n) (K.detailsAt n)) := by
    refine named.step
      (r := { http := K.prices (skusOf (K.named (K.pageAt n))) })
      ⟨rfl, (by rintro (h | h) <;> cases h), rfl⟩ (fun _ here => by cases here) rfl
  have wrote := priced.next rfl rfl
  have saved := (wrote.next rfl rfl).next rfl rfl
  exact ⟨_, _, saved, goes, K.follows n lt⟩

theorem single_done (comes : Comes K s₀ s (.checkStop v)) (goes : s.ozonStop = false)
    (at_n : v.lastId = K.cursor n) (le : n ≤ K.pages) : ∃ f, SingleSync conf K s₀ f := by
  induction left : K.pages - n generalizing n s v with
  | zero =>
      obtain ⟨s, v, listed, goes⟩ := comes_afterListing comes goes at_n le
      have at_end : n = K.pages := by omega
      rw [afterListing, if_pos ((empty_iff le).mpr at_end)] at listed
      exact single_ends listed goes
  | succ left ih =>
      obtain ⟨s, v, listed, goes⟩ := comes_afterListing comes goes at_n le
      have lt : n < K.pages := by omega
      rw [afterListing, if_neg fun empty => lt.ne ((empty_iff le).mp empty)] at listed
      obtain ⟨s, v, sends, goes, at_next⟩ := comes_sendRunning listed goes lt
      cases more : (K.pageAt n).hasMore with
      | false =>
          rw [more] at sends
          exact single_ends (sends.next rfl rfl) goes
      | true =>
          rw [more] at sends
          exact ih (sends.next rfl rfl) goes at_next lt (by omega)

end Single

/-- Over all lives of the service from an empty checkpoint, with one catalogue in fixed pages: whatever
list requests failed and wherever the sync was stopped, crashed and was triggered again, a run that
saves `done` leaves the products and the checkpoint that a single uninterrupted sync leaves. -/
theorem done_as_uninterrupted (conf : Conf) (K : PagedCatalogue conf.pageSize) (s₀ : Shared)
    (empty : keptPoint s₀.syncState = ("", 0, 0)) (c d : Config Shared Place)
    (l : Label Place Reply)
    (lives : Lives (starting conf) (Served conf K) restart (restart s₀) c)
    (served : Served conf K c l) (saves : SavesDone conf c l d) :
    (∃ f, SingleSync conf K s₀ f) ∧ ∀ f, SingleSync conf K s₀ f →
      (∀ row, row ∈ d.shared.products.rows ↔ row ∈ f.shared.products.rows) ∧
        d.shared.syncState.map rowPoint = f.shared.syncState.map rowPoint := by
  constructor
  · obtain ⟨s, v, comes, goes, at_start⟩ := comes_checkStop (K := K) empty
    exact single_done comes goes at_start (Nat.zero_le _)
  · rintro f ⟨e, m, single, undisturbed, ends⟩
    have weaker : ∀ c l, Uninterrupted conf K c l → Served conf K c l := by
      intro c l uninterrupted
      cases l with
      | spawn p => trivial
      | act i r => exact uninterrupted.1
    have first := (known_lives empty lives).done served saves
    have second := (known_lives empty (Lives.start.reach (single.mono weaker))).done
      (weaker e m undisturbed) ends
    refine ⟨fun row => ?_, first.2.trans second.2.symm⟩
    exact Set.ext_iff.mp (first.1.trans second.1.symm) row

section Sample

variable (conf : Conf) (K : PagedCatalogue conf.pageSize)

def answers : Pc → Reply → Bool
  | .fetchPage v, r => (fetchPageCursor conf.pageSize r.http).networkError ||
      decide (fetchPageCursor conf.pageSize r.http = K.page conf.pageSize v.lastId)
  | .fetchInfo _ page, r =>
      decide (fetchInfoBatch (page.items.map OzonProduct.id) r.http = K.named page)
  | .fetchPrices _ _ named, r =>
      decide (withPrices named (fetchPricesStocksBatch (skusOf named) r.http) = K.priced named)
  | _, _ => true

theorem answers_iff (pc : Pc) (r : Reply) : answers conf K pc r = true ↔ Answered conf K pc r := by
  cases pc
  case fetchPage => simp [answers, Answered]
  case fetchInfo | fetchPrices => exact decide_eq_true_iff
  all_goals exact iff_of_true rfl trivial

instance (pc : Pc) (r : Reply) : Decidable (Answered conf K pc r) :=
  decidable_of_iff (answers conf K pc r = true) (answers_iff conf K pc r)

instance (s : Shared) (pc : Pc) (r : Reply) : Decidable (ServedAt conf K s pc r) :=
  decidable_of_iff (r.dbOk = true ∧
      (pc = .resetRunning ∨ pc = .resetStop → s.ozonRunning = false) ∧ Answered conf K pc r)
    ⟨fun h => ⟨h.1, h.2.1, h.2.2⟩, fun h => ⟨h.database, h.single, h.answered⟩⟩

instance : ∀ c l, Decidable (Served conf K c l)
  | _, .spawn _ => .isTrue trivial
  | c, .act i r =>
      inferInstanceAs (Decidable (∀ p ∈ c.procs[i]?, ∀ pc ∈ p.pc?, ServedAt conf K c.shared pc r))

def answer (body : Json) : HttpReply := { statusCode := 200, body := .ok body }

def listing (id : Int) (lastId : String) : HttpReply :=
  answer (.object [("result", .object [("items", .array [.object [("product_id", .int64 id)]]),
    ("last_id", .string lastId)])])

def infoItem (id : String) : Json := .object [("id", .int64 (if id = "1" then 1 else 2))]

/-- Two products, on two pages of one product each. -/
def twoProducts : PagedCatalogue 1 where
  listing cursor :=
    if cursor = "" then listing 1 "c1" else if cursor = "c1" then listing 2 "c2"
    else answer (.object [])
  info ids := answer (.object [("items", .array (ids.map infoItem))])
  prices _ := answer (.object [])
  pages := 2
  cursor
    | 0 => ""
    | 1 => "c1"
    | _ => "c2"
  first := rfl
  answers := by decide +kernel
  follows := by decide +kernel
  listed := by decide +kernel
  full k lt := by
    obtain rfl : k = 0 := by omega
    decide +kernel
  last := by decide +kernel
  fits := by decide +kernel

def steps (i n : Nat) : List (Label Place Reply) := List.replicate n (.act i {})

def requests (i : Nat) (cursor id : String) : List (Label Place Reply) :=
  [.act i { http := twoProducts.listing cursor }, .act i { http := twoProducts.info [id] },
    .act i { http := twoProducts.prices [] }]

def trigger : List (Label Place Reply) := [.spawn (.call .checkShutdown)]

/-- A sync that crashes between its two copies of the first checkpoint; and in the second life one whose
first list request fails and that is stopped after the first page, and one that goes on. -/
def interruptions : List (List (Label Place Reply)) :=
  [steps 0 4 ++ trigger ++ steps 1 12 ++ requests 1 "" "1" ++ steps 1 2,
    steps 0 4 ++ trigger ++ steps 1 16 ++ requests 1 "" "1" ++
      (.spawn (.call .stopStatus) :: steps 2 4) ++ steps 1 11 ++ trigger ++ steps 3 11 ++
      requests 3 "c1" "2" ++ steps 3 5 ++ [.act 3 { http := twoProducts.listing "c2" }] ++ steps 3 1]

def endsNext (c : Config Shared Place) : Bool :=
  match c.procs[3]? with
  | some p => match p.pc? with
    | some (.saveDone _) => true
    | _ => false
  | none => false

private theorem saves_of_endsNext {c : Config Shared Place} (ends : endsNext c = true) :
    ∃ d, SavesDone { pageSize := 1 } c (.act 3 {}) d := by
  unfold endsNext at ends
  split at ends
  · rename_i p at_3
    split at ends
    · rename_i v here
      have next : ∃ d, (starting { pageSize := 1 }).next c (.act 3 {}) = some d := by
        simp only [Machine.next, at_3]
        cases p with
        | call pc | resumed pc =>
            cases here
            exact ⟨_, rfl⟩
        | markPulls | markOzon | resumeOnStart | checkUnfinished => cases here
      obtain ⟨d, next⟩ := next
      exact ⟨d, next, 3, {}, p, v, rfl, at_3, here⟩
    · cases ends
  · cases ends

theorem done_as_uninterrupted_resumed :
    ∃ c d f : Config Shared Place,
      Lives (starting { pageSize := 1 }) (Served { pageSize := 1 } twoProducts) restart
        (restart {}) c ∧
      SavesDone { pageSize := 1 } c (.act 3 {}) d ∧ SingleSync { pageSize := 1 } twoProducts {} f ∧
      (∀ row, row ∈ d.shared.products.rows ↔ row ∈ f.shared.products.rows) ∧
        d.shared.syncState.map rowPoint = f.shared.syncState.map rowPoint := by
  obtain ⟨c, lives, test⟩ : ∃ c, Lives (starting { pageSize := 1 })
      (Served { pageSize := 1 } twoProducts) restart (restart {}) c ∧
        (endsNext c && decide (Served { pageSize := 1 } twoProducts c (.act 3 {}))) = true :=
    lives_of_relive_test (g := fun c l => decide (Served { pageSize := 1 } twoProducts c l))
      interruptions
      (fun c => endsNext c && decide (Served { pageSize := 1 } twoProducts c (.act 3 {})))
      (fun _ _ => of_decide_eq_true) (by decide +kernel)
  obtain ⟨ends, served⟩ := Bool.and_eq_true_iff.mp test
  obtain ⟨d, saves⟩ := saves_of_endsNext ends
  obtain ⟨⟨f, single⟩, same⟩ := done_as_uninterrupted { pageSize := 1 } twoProducts {} rfl c d _ lives
    (of_decide_eq_true served) saves
  exact ⟨c, d, f, lives, saves, single, same f single⟩

end Sample

end Scand.Ozon.Interruptions
