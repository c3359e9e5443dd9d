/- path: Scand/Ozon/WholeListing
   layer: results
   digest: Which pages of the listing an Ozon run has requested, and which products it has asked the
   info of, when it ends with the status done. -/

import Scand.Ozon.StopFlag

set_option autoImplicit false
set_option relaxedAutoImplicit false

namespace Scand.Ozon.WholeListing

open Scand.Foundation.Interleaving
open Scand.Foundation.JsonValue
open Scand.Ozon.Client
open Scand.Ozon.Mirror (endsDone pageIds step_keeps)
open Scand.Ozon.Service
open Scand.Ozon.StopFlag (Past Proc)

def heldItems (data : Json) : Except String (List Json) :=
  match data with
  | .object o =>
      match o.lookup "result" with
      | none => .ok []
      | some result => do
          let res ← needObject result
          match res.lookup "items" with
          | none => return []
          | some items => needArray items
  | _ => .ok []

/-- A request of the listing that succeeds, with the items of its answer. -/
def Lists (r : HttpReply) (items : List Json) : Prop :=
  r.statusCode = 200 ∧ r.body.bind heldItems = .ok items

/-- The answers of the listing, in the order of the requests, with the items that they hold. -/
structure Listing where
  answer : Nat → HttpReply
  items : Nat → List Json
  lists : ∀ k, Lists (answer k) (items k)

/-- The integer product id of an item; none for an item of another shape. -/
def productId (item : Json) : Option Int := item.asObject?.bind fun o => intField o "product_id"

namespace Listing

variable (L : Listing) (pageSize : Int)

def full (k : Nat) : Prop := ((L.items k).length : Int) = pageSize

/-- The server has a page when the ones before it are full. -/
def HasPage (k : Nat) : Prop := ∀ j < k, L.full pageSize j

def page (k : Nat) : OzonPage := fetchPageCursor pageSize (L.answer k)

/-- No item of a full page is skipped, and a full page is not empty. -/
def Whole : Prop :=
  ∀ k, L.HasPage pageSize k → L.full pageSize k →
    L.items k ≠ [] ∧ ∀ item ∈ L.items k, (productId item).isSome = true

end Listing

def requests (past : Past) : Nat := past.countP fun e => StopFlag.fetched.isFetch e.1

def passedIds (past : Past) : List String := past.flatMap fun e => asked e.1
where
  asked : Pc → List String
    | .fetchInfo _ page => pageIds page
    | _ => []

/-- Every page was requested, and every listed item with an integer product id was asked for. -/
structure RequestedAll (L : Listing) (pageSize : Int) (past : Past) : Prop where
  pages : ∀ k, L.HasPage pageSize k → k < requests past
  ids : ∀ k, L.HasPage pageSize k → ∀ item ∈ L.items k, ∀ id, productId item = some id →
    toString id ∈ passedIds past

def leftLoop : Pc → Bool
  | .checkStopAtEnd _ => true
  | _ => false

/-- Nobody withdraws the stop request under which the run of call `i` may have left its loop. -/
def StopStands (i : Nat) (c : Config Shared Proc) : Label Proc Reply → Prop
  | .spawn _ => True
  | .act j _ => ∀ w ∈ c.procs[j]?, w.1 = .clearStop ∨ w.1 = .resetStop →
      c.shared.ozonStop = true → ∀ p ∈ c.procs[i]?, leftLoop p.1 = false

/-- The run of call `i` gets the answers of the listing in their order. -/
def Answered (L : Listing) (i : Nat) (c : Config Shared Proc) : Label Proc Reply → Prop
  | .spawn _ => True
  | .act j r => i = j → ∀ p ∈ c.procs[j]?, StopFlag.fetched.isFetch p.1 = true →
      r.http = L.answer (requests p.2)

section Pages

variable {L : Listing} {pageSize : Int} {k : Nat}

theorem readPage_items {data : Json} {items : List Json} (held : heldItems data = .ok items) :
    ∃ page, readPage data = .ok page ∧
      page.items = (Json.objects items).filterMap listedProduct ∧ page.networkError = false := by
  unfold heldItems at held
  unfold readPage
  cases data with
  | object o =>
      simp only at held ⊢
      cases result : o.lookup "result" with
      | none =>
          rw [result] at held
          cases held
          exact ⟨{}, rfl, rfl, rfl⟩
      | some value =>
          rw [result] at held
          cases value with
          | object res =>
              simp only [needObject, bind, Except.bind] at held ⊢
              cases listed : res.lookup "items" with
              | none =>
                  rw [listed] at held
                  cases held
                  exact ⟨_, rfl, rfl, rfl⟩
              | some value =>
                  rw [listed] at held
                  cases value with
                  | array all =>
                      cases held
                      exact ⟨_, rfl, rfl, rfl⟩
                  | _ => cases held
          | _ => cases held
  | _ =>
      cases held
      exact ⟨{}, rfl, rfl, rfl⟩

theorem page_items (L : Listing) (pageSize : Int) (k : Nat) :
    (L.page pageSize k).items = (Json.objects (L.items k)).filterMap listedProduct ∧
      (L.page pageSize k).networkError = false := by
  obtain ⟨ok, held⟩ := L.lists k
  unfold Listing.page fetchPageCursor
  rw [if_neg (not_not.mpr ok)]
  cases body : (L.answer k).body with
  | error text =>
      rw [body] at held
      cases held
  | ok data =>
      rw [body] at held
      obtain ⟨page, read, items, answers⟩ := readPage_items held
      have bound : (Except.ok data : Except String Json).bind readPage = .ok page := read
      rw [bound]
      exact ⟨items, answers⟩

theorem pageIds_page (L : Listing) (pageSize : Int) (k : Nat) :
    pageIds (L.page pageSize k) = ((L.items k).filterMap productId).map toString := by
  rw [pageIds, (page_items L pageSize k).1, Json.objects, List.filterMap_filterMap, List.map_filterMap,
    List.map_filterMap]
  congr 1
  funext item
  unfold productId listedProduct
  cases item.asObject? with
  | none => rfl
  | some o =>
      show ((intField o "product_id").map _).map OzonProduct.id = (intField o "product_id").map toString
      rw [Option.map_map]
      rfl

theorem length_page_items (L : Listing) (pageSize : Int) (k : Nat) :
    (L.page pageSize k).items.length = (L.items k).countP fun item => (productId item).isSome := by
  have ids := congrArg List.length (pageIds_page L pageSize k)
  rw [pageIds, List.length_map, List.length_map, List.length_filterMap_eq_countP] at ids
  exact ids

theorem hasMore_of_full (full : L.full pageSize k) : (L.page pageSize k).hasMore = true ↔
    L.items k ≠ [] ∧ ∀ item ∈ L.items k, (productId item).isSome = true := by
  have count := length_page_items L pageSize k
  have answered : (fetchPageCursor pageSize (L.answer k)).networkError = false :=
    (page_items L pageSize k).2
  have more : (L.page pageSize k).hasMore = true ↔ (L.page pageSize k).items ≠ [] ∧
      ((L.page pageSize k).items.length : Int) = pageSize := hasMore_fetchPageCursor answered
  have none_skipped : ((L.page pageSize k).items.length : Int) = pageSize ↔
      ∀ item ∈ L.items k, (productId item).isSome = true := by
    have sized : ((L.items k).length : Int) = pageSize := full
    rw [← List.countP_eq_length, ← count]
    omega
  rw [more, none_skipped]
  refine and_congr_left fun all => ?_
  rw [← List.length_pos_iff, ← List.length_pos_iff, count, List.countP_eq_length.mpr all]

end Pages

def early : Pc → Bool
  | .fullCheckShutdown | .fullResetCheckpoint | .fullRemoveStored | .checkShutdown | .claimRunning
  | .clearStop | .startJob | .abandonOld _ | .insertJob _ | .submit | .queued | .readStore
  | .loadCheckpoint => true
  | _ => false

section Run

variable (L : Listing) (pageSize : Int)

/-- The run has gone on behind the first pages, and asked for what they list. -/
def Went (n : Nat) (past : Past) : Prop :=
  ∀ j < n, (L.page pageSize j).hasMore = true ∧ pageIds (L.page pageSize j) ⊆ passedIds past

structure OnPage (past : Past) (n : Nat) : Prop where
  requested : requests past = n + 1
  went : Went L pageSize n past

structure Asked (past : Past) (n : Nat) : Prop extends OnPage L pageSize past n where
  asked : pageIds (L.page pageSize n) ⊆ passedIds past

def At (past : Past) : Pc → Prop
  | .saveRunning _ | .checkStop _ | .fetchPage _ => Went L pageSize (requests past) past
  | .sendTotal _ page | .fetchInfo _ page => ∃ n, OnPage L pageSize past n ∧ page = L.page pageSize n
  | .fetchPrices _ page _ | .upsertPage _ page _ =>
      ∃ n, Asked L pageSize past n ∧ page = L.page pageSize n
  | .setStore _ more | .saveCheckpoint _ more | .sendRunning _ more =>
      ∃ n, Asked L pageSize past n ∧ more = (L.page pageSize n).hasMore
  | .checkStopAtEnd _ | .saveDone _ | .sendDone _ | .readDoneJob _ | .finishJob _ _ =>
      ∃ n, Asked L pageSize past n ∧ (L.page pageSize n).hasMore = false
  -- no request of the listing fails
  | .saveRetry _ | .sendRetry _ => False
  | pc => early pc = true → requests past = 0

/-- Where a call stands; a run that left its loop under a stop request is not followed. -/
def Stage (s : Shared) (p : Proc) : Prop :=
  At L pageSize p.2 p.1 ∨ (s.ozonStop = true ∧ leftLoop p.1 = true)

variable {L pageSize} {past : Past} {pc pc' : Pc} {r : Reply} {n : Nat} {s s' : Shared}
  {conf : Conf} {i : Nat}

theorem requests_snoc : requests (past ++ [(pc, r)]) =
    requests past + (StopFlag.fetched.isFetch pc).toNat := by
  rw [requests, countP_snoc]
  rfl

theorem requests_kept (no_fetch : StopFlag.fetched.isFetch pc = false) :
    requests (past ++ [(pc, r)]) = requests past := by
  rw [requests_snoc, no_fetch]
  rfl

theorem passedIds_snoc : passedIds (past ++ [(pc, r)]) = passedIds past ++ passedIds.asked pc := by
  rw [passedIds, List.flatMap_append, List.flatMap_singleton]
  rfl

theorem passedIds_subset : passedIds past ⊆ passedIds (past ++ [(pc, r)]) := by
  rw [passedIds_snoc]
  exact List.subset_append_left _ _

theorem went_zero : Went L pageSize 0 past := fun j before => absurd before (Nat.not_lt_zero j)

theorem Went.snoc (went : Went L pageSize n past) : Went L pageSize n (past ++ [(pc, r)]) := by
  intro j before
  obtain ⟨more, asked⟩ := went j before
  exact ⟨more, fun id mem => passedIds_subset (asked mem)⟩

theorem Went.kept (went : Went L pageSize (requests past) past)
    (no_fetch : StopFlag.fetched.isFetch pc = false) :
    Went L pageSize (requests (past ++ [(pc, r)])) (past ++ [(pc, r)]) := by
  rw [requests_kept no_fetch]
  exact went.snoc

theorem OnPage.snoc (on_page : OnPage L pageSize past n)
    (no_fetch : StopFlag.fetched.isFetch pc = false) :
    OnPage L pageSize (past ++ [(pc, r)]) n where
  requested := (requests_kept no_fetch).trans on_page.requested
  went := on_page.went.snoc

theorem Asked.snoc (asked : Asked L pageSize past n)
    (no_fetch : StopFlag.fetched.isFetch pc = false) :
    Asked L pageSize (past ++ [(pc, r)]) n where
  toOnPage := asked.toOnPage.snoc no_fetch
  asked := fun _ mem => passedIds_subset (asked.asked mem)

theorem Asked.went_on (asked : Asked L pageSize past n) (more : (L.page pageSize n).hasMore = true) :
    Went L pageSize (requests past) past := by
  rw [asked.requested]
  intro j before
  rcases Nat.lt_succ_iff_lt_or_eq.mp before with earlier | rfl
  · exact asked.went j earlier
  · exact ⟨more, asked.asked⟩

theorem at_afterListing {v : RunVars} (on_page : OnPage L pageSize past n) :
    At L pageSize past (afterListing v (L.page pageSize n)) := by
  unfold afterListing
  split
  · rename_i empty
    rw [List.isEmpty_iff] at empty
    have answered : (fetchPageCursor pageSize (L.answer n)).networkError = false :=
      (page_items L pageSize n).2
    have none_more : (L.page pageSize n).hasMore = false := by
      rw [← Bool.not_eq_true]
      intro more
      exact ((hasMore_fetchPageCursor answered).mp more).1 empty
    refine ⟨n, ⟨on_page, ?_⟩, none_more⟩
    rw [pageIds, empty]
    exact List.nil_subset _
  · exact ⟨n, on_page, rfl⟩

theorem at_fetchPage {v : RunVars} (answered : r.http = L.answer (requests past))
    (stepped : runStep conf i s (.fetchPage v) r = some (s', pc'))
    (went : Went L conf.pageSize (requests past) past) :
    At L conf.pageSize (past ++ [(.fetchPage v, r)]) pc' := by
  have read : fetchPageCursor conf.pageSize r.http = L.page conf.pageSize (requests past) := by
    rw [answered]
    rfl
  have on_page : OnPage L conf.pageSize (past ++ [(.fetchPage v, r)]) (requests past) :=
    ⟨requests_snoc, went.snoc⟩
  simp only [runStep, read, (page_items L conf.pageSize (requests past)).2, Bool.false_eq_true,
    if_false] at stepped
  split at stepped <;> cases stepped
  · exact ⟨_, on_page, rfl⟩
  · exact at_afterListing on_page

theorem at_begin (stepped : runStep conf i s pc r = some (s', pc')) (begins : early pc = true)
    (none_yet : requests past = 0) : At L pageSize (past ++ [(pc, r)]) pc' := by
  have no_fetch : StopFlag.fetched.isFetch pc = false := by
    cases pc <;> first | rfl | cases begins
  have still : requests (past ++ [(pc, r)]) = 0 := (requests_kept no_fetch).trans none_yet
  have went : Went L pageSize (requests (past ++ [(pc, r)])) (past ++ [(pc, r)]) := by
    rw [still]
    exact went_zero
  cases pc <;> try (cases begins; done)
  all_goals
    simp only [runStep, Option.some.injEq, Prod.mk.injEq, reduceCtorEq] at stepped
  case queued =>
    split at stepped
    · split at stepped <;> cases stepped
      exact fun _ => still
    · cases stepped
  case readStore =>
    obtain ⟨rfl, rfl⟩ := stepped
    split
    · exact went
    · exact fun _ => still
  case loadCheckpoint =>
    obtain ⟨rfl, rfl⟩ := stepped
    exact went

/-- A step of the run, with the answers of the listing, keeps to what its place says. -/
theorem at_runStep (stepped : runStep conf i s pc r = some (s', pc'))
    (answered : StopFlag.fetched.isFetch pc = true → r.http = L.answer (requests past))
    (place : At L conf.pageSize past pc) (in_loop : ¬ leftLoop pc = true) :
    Stage L conf.pageSize s' (pc', past ++ [(pc, r)]) := by
  cases pc
  case queued => exact Or.inl (at_begin stepped rfl (place rfl))
  case readStore => exact Or.inl (at_begin stepped rfl (place rfl))
  case loadCheckpoint => exact Or.inl (at_begin stepped rfl (place rfl))
  case fetchPage v => exact Or.inl (at_fetchPage (answered rfl) stepped place)
  case checkStopAtEnd v => exact absurd rfl in_loop
  case saveRetry v => exact place.elim
  case sendRetry v => exact place.elim
  all_goals
    simp only [runStep, Option.some.injEq, Prod.mk.injEq, reduceCtorEq] at stepped
  all_goals obtain ⟨rfl, rfl⟩ := stepped
  case saveRunning v =>
    have went : Went L conf.pageSize (requests past) past := place
    exact Or.inl (went.kept rfl)
  case checkStop v =>
    split
    · rename_i stop
      exact Or.inr ⟨stop, rfl⟩
    · have went : Went L conf.pageSize (requests past) past := place
      exact Or.inl (went.kept rfl)
  case sendTotal v page =>
    obtain ⟨n, on_page, rfl⟩ := place
    exact Or.inl (at_afterListing (on_page.snoc rfl))
  case fetchInfo v page =>
    obtain ⟨n, on_page, rfl⟩ := place
    refine Or.inl ⟨n, ⟨on_page.snoc rfl, ?_⟩, rfl⟩
    rw [passedIds_snoc]
    exact List.subset_append_right _ _
  case fetchPrices | upsertPage =>
    obtain ⟨n, asked, rfl⟩ := place
    exact Or.inl ⟨n, asked.snoc rfl, rfl⟩
  case setStore | saveCheckpoint =>
    obtain ⟨n, asked, same⟩ := place
    exact Or.inl ⟨n, asked.snoc rfl, same⟩
  case sendRunning v more =>
    obtain ⟨n, asked, same⟩ := place
    split
    · rename_i goes_on
      exact Or.inl ((asked.snoc rfl).went_on (same.symm.trans goes_on))
    · rename_i ends
      rw [Bool.not_eq_true] at ends
      exact Or.inl ⟨n, asked.snoc rfl, same.symm.trans ends⟩
  case saveDone | sendDone =>
    obtain ⟨n, asked, none_more⟩ := place
    exact Or.inl ⟨n, asked.snoc rfl, none_more⟩
  case readDoneJob total =>
    obtain ⟨n, asked, none_more⟩ := place
    split
    · exact Or.inl fun other => by cases other
    · exact Or.inl ⟨n, asked.snoc rfl, none_more⟩
  all_goals
    first
      | exact Or.inl fun other => by cases other
      | (split <;> exact Or.inl fun other => by cases other)

theorem stage_checkStopAtEnd {v : RunVars}
    (stepped : runStep conf i s (.checkStopAtEnd v) r = some (s', pc'))
    (stage : Stage L pageSize s (.checkStopAtEnd v, past)) :
    Stage L pageSize s' (pc', past ++ [(.checkStopAtEnd v, r)]) := by
  simp only [runStep, Option.some.injEq, Prod.mk.injEq] at stepped
  obtain ⟨rfl, rfl⟩ := stepped
  split
  · exact Or.inl fun other => by cases other
  · rename_i not_stopped
    have place : At L pageSize past (.checkStopAtEnd v) := by
      rcases stage with place | ⟨stopped, -⟩
      · exact place
      · exact absurd stopped not_stopped
    obtain ⟨n, asked, none_more⟩ := place
    exact Or.inl ⟨n, asked.snoc rfl, none_more⟩

theorem at_triggerStep (stepped : triggerStep i s pc r = some (s', pc'))
    (place : At L pageSize past pc) : At L pageSize (past ++ [(pc, r)]) pc' := by
  have still : requests past = 0 → StopFlag.fetched.isFetch pc = false →
      requests (past ++ [(pc, r)]) = 0 :=
    fun none_yet no_fetch => (requests_kept no_fetch).trans none_yet
  cases pc <;> simp only [triggerStep, Option.some.injEq, Prod.mk.injEq, reduceCtorEq] at stepped
  case claimRunning | submit =>
    split at stepped <;> cases stepped
    · exact fun _ => still (place rfl) rfl
    · exact fun _ => still (place rfl) rfl
  case releaseRefused | failRefusedJob =>
    obtain ⟨rfl, rfl⟩ := stepped
    exact fun other => by cases other
  case readRefusedJob =>
    obtain ⟨rfl, rfl⟩ := stepped
    split <;> exact fun other => by cases other
  all_goals
    obtain ⟨rfl, rfl⟩ := stepped
    try split
    all_goals exact fun _ => still (place rfl) rfl

theorem at_controlStep (stepped : controlStep s pc r = some (s', pc')) :
    At L pageSize (past ++ [(pc, r)]) pc' := by
  cases pc <;> simp only [controlStep, Option.some.injEq, Prod.mk.injEq, reduceCtorEq] at stepped
  case requestShutdown => split at stepped <;> cases stepped <;> exact fun other => by cases other
  all_goals
    obtain ⟨rfl, rfl⟩ := stepped
    try split
    all_goals exact fun other => by cases other

theorem stage_step {p q : Proc} (stage : Stage L conf.pageSize s p)
    (answered : StopFlag.fetched.isFetch p.1 = true → r.http = L.answer (requests p.2))
    (stepped : (service conf).step i s p.1 r = some (s', q.1)) (grown : q.2 = p.2 ++ [(p.1, r)]) :
    Stage L conf.pageSize s' q := by
  obtain ⟨pc, past⟩ := p
  obtain ⟨pc', past'⟩ := q
  obtain rfl : past' = past ++ [(pc, r)] := grown
  by_cases left : leftLoop pc = true
  · cases pc <;> try (cases left; done)
    case checkStopAtEnd v =>
      have decided : runStep conf i s (.checkStopAtEnd v) r = some (s', pc') := stepped
      exact stage_checkStopAtEnd decided stage
  · have place : At L conf.pageSize past pc := stage.resolve_right fun ended => left ended.2
    rcases service_step stepped with trigger | run | control
    · exact Or.inl (at_triggerStep trigger place)
    · exact at_runStep run answered place left
    · exact Or.inl (at_controlStep control)

end Run

theorem stage_next {conf : Conf} {L : Listing} {i : Nat} {c d : Config Shared Proc}
    {l : Label Proc Reply} (stage : ∀ p, c.procs[i]? = some p → Stage L conf.pageSize c.shared p)
    (stands : StopStands i c l) (answered : Answered L i c l)
    (next : (service conf).recording.next c l = some d) :
    ∀ p, d.procs[i]? = some p → Stage L conf.pageSize d.shared p := by
  intro p at_i
  rcases next_cases next with ⟨q, rfl, entry, rfl⟩ | ⟨j, r, w, s', q, rfl, at_j, stepped, rfl⟩
  · rcases getElem?_snoc_cases at_i with old | rfl
    · exact stage p old
    · -- a fresh call stands at an entry, with nothing behind it
      obtain ⟨call, fresh⟩ := recording_entry entry
      have none_yet : requests p.2 = 0 := by
        rw [fresh]
        rfl
      have call : isCall p.1 = true := call
      left
      cases place : p.1 <;> rw [place] at call <;>
        first | (cases call; done) | exact fun _ => none_yet
  · obtain ⟨inner, grown⟩ := recording_step stepped
    rcases getElem?_set_cases at_i with ⟨rfl, rfl⟩ | ⟨-, at_i⟩
    · exact stage_step (stage w at_j) (answered rfl w at_j) inner grown
    · rcases stage p at_i with place | ⟨stopped, left⟩
      · exact Or.inl place
      · have kept : ¬ (w.1 = .clearStop ∨ w.1 = .resetStop) := by
          intro clears
          rw [stands w at_j clears stopped p at_i] at left
          cases left
        have set := (step_keeps inner).2 (fun clears => kept (Or.inl clears))
          (fun resets => kept (Or.inr resets)) stopped
        exact Or.inr ⟨set, left⟩

theorem productId_mem {L : Listing} {pageSize : Int} {k : Nat} {item : Json} {id : Int}
    (mem : item ∈ L.items k) (read : productId item = some id) :
    toString id ∈ pageIds (L.page pageSize k) := by
  rw [pageIds_page]
  exact List.mem_map_of_mem (List.mem_filterMap.mpr ⟨item, mem, read⟩)

theorem requestedAll_iff {L : Listing} {pageSize : Int} {past : Past} {n : Nat}
    (last : Asked L pageSize past n) (none_more : (L.page pageSize n).hasMore = false) :
    RequestedAll L pageSize past ↔ L.Whole pageSize := by
  have requested := last.requested
  constructor
  · intro all k has_page full
    -- the server has a page behind the full one, so the run went on to it
    have has_next : L.HasPage pageSize (k + 1) := by
      intro j before
      rcases Nat.lt_succ_iff_lt_or_eq.mp before with earlier | rfl
      · exact has_page j earlier
      · exact full
    have before := all.pages (k + 1) has_next
    have gone : k < n := by omega
    exact (hasMore_of_full full).mp (last.went k gone).1
  · intro whole
    have within : ∀ k, L.HasPage pageSize k → k ≤ n := by
      intro k has_page
      by_contra behind
      have has_last : L.HasPage pageSize n := fun j before => has_page j (by omega)
      have full : L.full pageSize n := has_page n (by omega)
      have more := (hasMore_of_full full).mpr (whole n has_last full)
      rw [none_more] at more
      cases more
    refine ⟨fun k has_page => ?_, fun k has_page item mem id read => ?_⟩
    · have le := within k has_page
      omega
    · have on_it : toString id ∈ pageIds (L.page pageSize k) := productId_mem mem read
      rcases Nat.lt_or_eq_of_le (within k has_page) with earlier | rfl
      · exact (last.went k earlier).2 on_it
      · exact last.asked on_it

/-- In every run in which every request of the listing succeeds, and no stop request is withdrawn
between the loop of the run and its end: at the end with `done`, call `i` has requested every page of
the listing and asked for every product on them exactly when no full page is empty or holds an item
without an integer product id. -/
theorem done_requests_all_iff (conf : Conf) (L : Listing) (s₀ : Shared) (i : Nat)
    (c : Config Shared Proc)
    (reach : Reach (service conf).recording (fun c l => StopStands i c l ∧ Answered L i c l)
      ⟨s₀, []⟩ c)
    (p : Proc) (at_i : c.procs[i]? = some p) (done : endsDone p.1 = true) :
    RequestedAll L conf.pageSize p.2 ↔ L.Whole conf.pageSize := by
  have stage : ∀ p, c.procs[i]? = some p → Stage L conf.pageSize c.shared p :=
    reach.invariant (I := fun c => ∀ p, c.procs[i]? = some p → Stage L conf.pageSize c.shared p)
      (fun p none_yet => by cases none_yet)
      fun _ _ _ stage guard next => stage_next stage guard.1 guard.2 next
  have place : At L conf.pageSize p.2 p.1 := by
    rcases stage p at_i with place | ⟨-, left⟩
    · exact place
    · cases here : p.1 <;> rw [here] at done left <;> first | (cases done; done) | cases left
  obtain ⟨n, last, none_more⟩ : ∃ n, Asked L conf.pageSize p.2 n ∧
      (L.page conf.pageSize n).hasMore = false := by
    cases here : p.1 <;> rw [here] at done place <;> first | (cases done; done) | exact place
  exact requestedAll_iff last none_more

section Sample

instance (i : Nat) : ∀ c l, Decidable (StopStands i c l)
  | _, .spawn _ => .isTrue trivial
  | c, .act j _ => inferInstanceAs (Decidable (∀ w ∈ c.procs[j]?, w.1 = .clearStop ∨ w.1 = .resetStop →
      c.shared.ozonStop = true → ∀ p ∈ c.procs[i]?, leftLoop p.1 = false))

def listingOf (items : List Json) : HttpReply :=
  { statusCode := 200, body := .ok (.object [("result", .object [("items", .array items)])]) }

def product (id : Int) : Json := .object [("product_id", .int64 id)]

/-- Two full pages of two items and a short third one; the first page is given. -/
def sample (first : List Json) : Listing where
  answer k := listingOf (items k)
  items := items
  lists _ := ⟨rfl, rfl⟩
where
  items : Nat → List Json
    | 0 => first
    | 1 => [product 3, product 4]
    | _ => [product 5]

def turn (first : List Json) (k : Nat) : Label Proc Reply :=
  .act 0 { http := (sample first).answer k, micros := k }

def turns (first : List Json) (k n : Nat) : List (Label Proc Reply) :=
  List.replicate n (turn first k)

def schedule (first : List Json) (pages : Nat) : List (Label Proc Reply) :=
  .spawn (.checkShutdown, []) :: turns first 0 12 ++
    (List.range pages).flatMap fun k => turns first k 8

def onTurn (c : Config Shared Proc) (l : Label Proc Reply) : Bool :=
  decide (StopStands 0 c l) && match l with
    | .spawn _ => true
    | .act j r => decide (∀ p ∈ c.procs[j]?, StopFlag.fetched.isFetch p.1 = true →
        requests p.2 = r.micros)

private theorem turn_of_mem {first : List Json} {pages : Nat} {j : Nat} {r : Reply}
    (mem : .act j r ∈ schedule first pages) : r.http = (sample first).answer r.micros := by
  have of_turns : ∀ {k n}, .act j r ∈ turns first k n → r.http = (sample first).answer r.micros := by
    intro k n mem
    cases List.eq_of_mem_replicate mem
    rfl
  rcases List.mem_append.mp mem with early | late
  · rcases List.mem_cons.mp early with call | early
    · cases call
    · exact of_turns early
  · obtain ⟨k, -, late⟩ := List.mem_flatMap.mp late
    exact of_turns late

private theorem run_of_schedule (first : List Json) (pages : Nat) (test : Proc → Bool)
    (h : ((service { pageSize := 2 }).recording.run onTurn ⟨{}, []⟩ (schedule first pages)).map
      (fun c => c.procs[0]?.any test) = some true) :
    ∃ c p, Reach (service { pageSize := 2 }).recording
        (fun c l => StopStands 0 c l ∧ Answered (sample first) 0 c l) ⟨{}, []⟩ c ∧
      c.procs[0]? = some p ∧ test p = true := by
  obtain ⟨c, run, passed⟩ := Option.map_eq_some_iff.mp h
  obtain ⟨p, at_0, passed⟩ := (Option.any_eq_true _ _).mp passed
  refine ⟨c, p, reach_of_schedule (fun l mem c allowed => ?_) run, at_0, passed⟩
  obtain ⟨stands, turn⟩ := Bool.and_eq_true_iff.mp allowed
  refine ⟨of_decide_eq_true stands, ?_⟩
  cases l with
  | spawn q => trivial
  | act j r =>
      intro _ p at_j fetches
      rw [turn_of_mem mem, of_decide_eq_true turn p at_j fetches]

/-- An item without an integer product id on the first full page ends the run as done, and two pages
are never requested. -/
theorem page_cut_short :
    ∃ c p, Reach (service { pageSize := 2 }).recording
        (fun c l => StopStands 0 c l ∧
          Answered (sample [product 1, .object [("product_id", .string "2")]]) 0 c l) ⟨{}, []⟩ c ∧
      c.procs[0]? = some p ∧ endsDone p.1 = true ∧ requests p.2 = 1 ∧
      ¬ RequestedAll (sample [product 1, .object [("product_id", .string "2")]]) 2 p.2 := by
  obtain ⟨c, p, reach, at_0, test⟩ := run_of_schedule
    [product 1, .object [("product_id", .string "2")]] 1
    (fun p => endsDone p.1 && decide (requests p.2 = 1)) (by decide)
  obtain ⟨done, one⟩ := Bool.and_eq_true_iff.mp test
  have one := of_decide_eq_true one
  refine ⟨c, p, reach, at_0, done, one, fun all => ?_⟩
  have has_next : (sample [product 1, .object [("product_id", .string "2")]]).HasPage 2 1 := by
    intro j before
    obtain rfl : j = 0 := by omega
    rfl
  have before := all.pages 1 has_next
  omega

theorem sample_whole : (sample [product 1, product 2]).Whole 2 := by
  intro k _ full
  match k with
  | 0 => exact ⟨List.cons_ne_nil _ _, by decide⟩
  | 1 => exact ⟨List.cons_ne_nil _ _, by decide⟩
  | k + 2 => cases full

theorem three_pages_requested :
    ∃ p : Proc, endsDone p.1 = true ∧ RequestedAll (sample [product 1, product 2]) 2 p.2 := by
  obtain ⟨c, p, reach, at_0, done⟩ := run_of_schedule [product 1, product 2] 3
    (fun p => endsDone p.1) (by decide)
  exact ⟨p, done, (done_requests_all_iff { pageSize := 2 } _ {} 0 c reach p at_0 done).mpr
    sample_whole⟩

end Sample

end Scand.Ozon.WholeListing
