/- path: Scand/Catalog/Truncation
   layer: results
   digest: The two catalogue pulls agree, and neither truncates the catalogue, exactly below the limit
   of 100 000 entries, or where the second one fails as well. -/

import Scand.Catalog.LinkTables

set_option autoImplicit false
set_option relaxedAutoImplicit false

namespace Scand.Catalog.Truncation

open Scand.Catalog.Database
open Scand.Catalog.LinkTables
open Scand.Catalog.Normalize
open Scand.Catalog.Paging
open Scand.Catalog.Pull
open Scand.Catalog.Replacement
open Scand.Foundation.InternetAddress (Text)
open Scand.Foundation.JsonValue
open Scand.Foundation.KeyedTable
open Scand.Foundation.Transaction
open Scand.Inventory.Database

section Undated

variable {rows : List (List String)} {m : String} {records : List OneCProductRecord}
  {tenantId instant : Int}

def stamp (m : String) (rec : OneCProductRecord) : OneCProductRecord := { rec with measuredAt := m }

def dated (instant : Int) (row : CatalogRow) : CatalogRow := { row with measuredAt := instant }

theorem record_stamp (row : List String) : record m row = (record "" row).map (stamp m) := by
  rcases row with _ | ⟨code, _ | ⟨article, _ | ⟨name, _ | ⟨refKey, more⟩⟩⟩⟩ <;> try rfl
  simp only [record]
  split
  · rfl
  · split <;> rfl

theorem byRef_stamp (records : List OneCProductRecord) :
    byRef (records.map (stamp m)) = (byRef records).map (stamp m) := by
  induction records with
  | nil => rfl
  | cons r rest ih =>
      have same : ((rest.map (stamp m)).any fun later => later.refKey = (stamp m r).refKey) =
          rest.any fun later => later.refKey = r.refKey := by
        rw [List.any_map]
        rfl
      simp only [List.map_cons, byRef, same, ih]
      split <;> rfl

theorem refsByCode_stamp (records : List OneCProductRecord) (code : String) :
    refsByCode (records.map (stamp m)) code = refsByCode records code := by
  rw [refsByCode, refsByCode, List.filter_map, List.map_map]
  rfl

theorem normalize_stamp (rows : List (List String)) (m : String) :
    normalizeOnecProductCatalog rows m = (normalizeOnecProductCatalog rows "").map (stamp m) := by
  have read : rows.filterMap (record m) = (rows.filterMap (record "")).map (stamp m) := by
    rw [List.map_filterMap]
    exact List.filterMap_congr fun row _ => record_stamp row
  simp only [normalizeOnecProductCatalog, read, byRef_stamp, refsByCode_stamp, List.filter_map]
  have same : ∀ a b, codeLe a b = codeLe (stamp m a) (stamp m b) := fun _ _ => rfl
  exact (List.map_mergeSort fun a _ b _ => same a b).symm

theorem storedRow_dated {rec : OneCProductRecord} {row : CatalogRow} :
    storedRow tenantId instant (stamp m rec) = .ok row ↔
      storedRow tenantId 0 rec = .ok (dated 0 row) ∧ row.measuredAt = instant := by
  simp only [storedRow, stamp, bind, Except.bind, pure, Except.pure]
  repeat' split
  all_goals
    cases row
    simp [dated]
    try tauto

theorem mapM_storedRow_dated {rows : List CatalogRow} :
    (records.map (stamp m)).mapM (storedRow tenantId instant) = .ok rows ↔
      records.mapM (storedRow tenantId 0) = .ok (rows.map (dated 0)) ∧
        ∀ row ∈ rows, row.measuredAt = instant := by
  rw [mapM_ok_iff, mapM_ok_iff, List.forall₂_map_left_iff, List.forall₂_map_right_iff]
  simp only [storedRow_dated]
  induction records generalizing rows with
  | nil => cases rows <;> simp
  | cons rec records ih =>
      cases rows with
      | nil => simp
      | cons row rows => simp only [List.forall₂_cons, ih, List.forall_mem_cons]; tauto

end Undated

def dateless (db : CatalogDb) : List CatalogRow := db.products.rows.map (dated 0)

/-- Both pulls fail, or both leave the same products and report the same numbers. -/
def Agree (plain sse : Option (PullResult × CatalogDb)) : Prop :=
  (plain = none ∧ sse = none) ∨ ∃ r db r' db', plain = some (r, db) ∧ sse = some (r', db') ∧
    dateless db = dateless db' ∧ r.accepted = r'.accepted ∧ r.conflicts = r'.conflicts

/-- The products are those of the entries, and the other tenants' are as before. -/
def Holds (entries : List Json) (before after : CatalogDb) : Prop :=
  ∃ rows, (normalizeOnecProductCatalog (rawRows entries) "").mapM (storedRow 1 0) = .ok rows ∧
    dateless after = (replacedRows 1 before rows).map (dated 0)

def Whole (entries : List Json) (before : CatalogDb) (done : Option (PullResult × CatalogDb)) :
    Prop := ∀ result after, done = some (result, after) → Holds entries before after

structure Accepted (env : Env) (cfg : Config) (db : CatalogDb) (entries : List Json) : Prop where
  configured : cfg.complete = true
  address : ∃ base, publicationUrl env cfg = .ok base
  linked : Linked db
  storable : ∃ rows, Storable 1 0 (normalizeOnecProductCatalog (rawRows entries) "") rows

section Outcomes

variable {env : Env} {cfg : Config} {db db' : CatalogDb} {entries : List Json} {n : Nat}
  {rawRows : List (List String)} {tenantId instant : Int} {m : String}

theorem storable_dateless :
    (∃ rows, Storable tenantId instant (normalizeOnecProductCatalog rawRows m) rows) ↔
      ∃ rows, Storable tenantId 0 (normalizeOnecProductCatalog rawRows "") rows := by
  have columns : ∀ i (rows : List CatalogRow), (rows.map (dated i)).map CatalogRow.code =
      rows.map CatalogRow.code ∧ (rows.map (dated i)).map CatalogRow.refKey =
        rows.map CatalogRow.refKey := by
    intro i rows
    rw [List.map_map, List.map_map]
    exact ⟨rfl, rfl⟩
  constructor
  · rintro ⟨rows, copied, codes, refs⟩
    rw [normalize_stamp, mapM_storedRow_dated] at copied
    exact ⟨rows.map (dated 0), copied.1, by rwa [(columns 0 rows).1], by rwa [(columns 0 rows).2]⟩
  · rintro ⟨rows, copied, codes, refs⟩
    have undated : rows.map (dated 0) = rows := by
      have again := copied
      rw [normalize_stamp, mapM_storedRow_dated] at again
      refine (List.map_congr_left fun row mem => ?_).trans (List.map_id rows)
      have zero := again.2 row mem
      cases row
      simp only [dated, id_eq] at zero ⊢
      rw [zero]
    refine ⟨rows.map (dated instant), ?_, by rwa [(columns _ rows).1], by rwa [(columns _ rows).2]⟩
    rw [normalize_stamp, mapM_storedRow_dated, List.map_map]
    refine ⟨copied.trans (congrArg Except.ok ?_), fun row mem => ?_⟩
    · exact undated.symm
    · obtain ⟨old, -, rfl⟩ := List.mem_map.mp mem
      rfl

structure Outcome (env : Env) (cfg : Config) (db : CatalogDb) (entries : List Json)
    (done : Option (PullResult × CatalogDb)) : Prop where
  commits : (∃ result after, done = some (result, after)) ↔ Accepted env cfg db entries
  leaves : ∀ result after, done = some (result, after) → Holds entries db after ∧
    result.accepted = (normalizeOnecProductCatalog (Normalize.rawRows entries) "").length ∧
    result.conflicts = countDropped [] (Normalize.rawRows entries)

theorem holds_of_runs (ran : Work.Runs (replaceProducts env 1
      (normalizeOnecProductCatalog (Normalize.rawRows entries) env.measuredAt)) (Tx.opened db) n db') :
    Holds entries db db' := by
  obtain ⟨-, rows, ⟨copied, -⟩, replaced⟩ := replaced_of_runs ran
  rw [normalize_stamp, mapM_storedRow_dated] at copied
  refine ⟨rows.map (dated 0), copied.1, ?_⟩
  rw [dateless, replaced.products, replacedRows, replacedRows, List.map_append, List.map_append,
    List.map_map]
  rfl

theorem runs_iff_accepted {base : Text} (configured : cfg.complete = true)
    (address : publicationUrl env cfg = .ok base) :
    (∃ n db', Work.Runs (replaceProducts env 1
      (normalizeOnecProductCatalog (Normalize.rawRows entries) env.measuredAt)) (Tx.opened db) n db') ↔
      Accepted env cfg db entries := by
  rw [replace_runs_iff, storable_dateless]
  exact ⟨fun ⟨linked, storable⟩ => ⟨configured, ⟨base, address⟩, linked, storable⟩,
    fun accepted => ⟨accepted.linked, accepted.storable⟩⟩

theorem plain_outcome (below : entries.length < kMaxRows) :
    Outcome env cfg db entries (committed (pullOnecProductCatalog env cfg (serving entries) 1) db) := by
  have read : ∀ base, publicationUrl env cfg = .ok base →
      readAllRows env cfg (serving entries) = .ok (Normalize.rawRows entries) := by
    intro base address
    rw [readAllRows_serving env cfg entries address, if_neg (Nat.not_le.mpr below)]
  have accepted_address : ∀ {rows}, readAllRows env cfg (serving entries) = .ok rows →
      ∃ base, publicationUrl env cfg = .ok base := by
    intro rows ok
    cases address : publicationUrl env cfg with
    | error e => simp [readAllRows, address] at ok
    | ok base => exact ⟨base, rfl⟩
  refine ⟨⟨?_, fun accepted => ?_⟩, fun result after done => ?_⟩
  · rintro ⟨result, after, done⟩
    obtain ⟨configured, rows, ok, n, ran, -⟩ := committed_pull_iff.mp done
    obtain ⟨base, address⟩ := accepted_address ok
    obtain rfl := Except.ok.inj (ok.symm.trans (read base address))
    exact (runs_iff_accepted configured address).mp ⟨n, after, ran⟩
  · obtain ⟨base, address⟩ := accepted.address
    obtain ⟨n, after, ran⟩ := (runs_iff_accepted accepted.configured address).mpr accepted
    exact ⟨_, after, committed_pull_iff.mpr ⟨accepted.configured, _, read base address, n, ran, rfl⟩⟩
  · obtain ⟨-, rows, ok, n, ran, rfl⟩ := committed_pull_iff.mp done
    obtain ⟨base, address⟩ := accepted_address ok
    obtain rfl := Except.ok.inj (ok.symm.trans (read base address))
    refine ⟨holds_of_runs ran, ?_, rfl⟩
    rw [normalize_stamp, List.length_map]

theorem plain_limit (reached : kMaxRows ≤ entries.length) :
    committed (pullOnecProductCatalog env cfg (serving entries) 1) db = none := by
  cases done : committed (pullOnecProductCatalog env cfg (serving entries) 1) db with
  | none => rfl
  | some stored =>
      obtain ⟨-, rows, ok, -⟩ := committed_pull_iff.mp done
      cases address : publicationUrl env cfg with
      | error e => simp [readAllRows, address] at ok
      | ok base =>
          rw [readAllRows_serving env cfg entries address, if_pos reached] at ok
          cases ok

theorem sse_outcome (timings : Timings) :
    Outcome env cfg db (entries.take kMaxRows)
      (committed (pullOnecProductCatalogSse env cfg (serving entries) timings {}) db) := by
  have read : ∀ base, ReadsTo entries kMaxRows (entries.take kMaxRows)
      (pagesOf cfg (serving entries) base kPageSize kMaxRows) :=
    fun base => pagesOf_serving cfg base (by decide) 20 (by decide)
  have rows : ∀ base, (pagesOf cfg (serving entries) base ({} : PullOptions).pageSize
      ({} : PullOptions).maxRows).rows = Normalize.rawRows (entries.take kMaxRows) :=
    fun base => (read base).rows
  refine ⟨⟨?_, fun accepted => ?_⟩, fun result after done => ?_⟩
  · rintro ⟨result, after, done⟩
    obtain ⟨configured, base, address, -, n, ran, -⟩ := committed_sse_iff.mp done
    rw [rows base] at ran
    exact (runs_iff_accepted configured address).mp ⟨n, after, ran⟩
  · obtain ⟨base, address⟩ := accepted.address
    obtain ⟨n, after, ran⟩ := (runs_iff_accepted accepted.configured address).mpr accepted
    rw [← rows base] at ran
    exact ⟨_, after, committed_sse_iff.mpr
      ⟨accepted.configured, base, address, (read base).done, n, ran, rfl⟩⟩
  · obtain ⟨-, base, address, -, n, ran, rfl⟩ := committed_sse_iff.mp done
    rw [rows base] at ran
    refine ⟨holds_of_runs ran, ?_, congrArg _ (rows base)⟩
    simp only
    rw [rows base, normalize_stamp, List.length_map]

end Outcomes

/-- The two pulls of the same catalogue under the same settings agree, and neither truncates it,
exactly if it has fewer than 100 000 entries or the second one cannot store its first 100 000. -/
theorem pulls_agree_iff (env other : Env) (cfg : Config) (timings : Timings) (entries : List Json)
    (db : CatalogDb) :
    (Agree (committed (pullOnecProductCatalog env cfg (serving entries) 1) db)
        (committed (pullOnecProductCatalogSse { other with resolve := env.resolve } cfg
          (serving entries) timings {}) db) ∧
      Whole entries db (committed (pullOnecProductCatalog env cfg (serving entries) 1) db) ∧
      Whole entries db (committed (pullOnecProductCatalogSse { other with resolve := env.resolve } cfg
        (serving entries) timings {}) db)) ↔
      entries.length < kMaxRows ∨ ¬ Accepted env cfg db (entries.take kMaxRows) := by
  have sse : Outcome { other with resolve := env.resolve } cfg db (entries.take kMaxRows) _ :=
    sse_outcome timings
  have settings : ∀ entries, Accepted { other with resolve := env.resolve } cfg db entries ↔
      Accepted env cfg db entries := fun entries =>
    ⟨fun accepted => ⟨accepted.configured, accepted.address, accepted.linked, accepted.storable⟩,
      fun accepted => ⟨accepted.configured, accepted.address, accepted.linked, accepted.storable⟩⟩
  rw [← settings, ← sse.commits]
  constructor
  · rintro ⟨agree, -, -⟩
    by_contra neither
    rw [not_or, not_not] at neither
    obtain ⟨reached, result, after, done⟩ := neither
    rcases agree with ⟨-, fails⟩ | ⟨r, stored, -, -, plain, -⟩
    · rw [fails] at done
      cases done
    · rw [plain_limit (Nat.le_of_not_lt reached)] at plain
      cases plain
  · intro either
    by_cases below : entries.length < kMaxRows
    · have plain : Outcome env cfg db entries _ := plain_outcome below
      rw [List.take_of_length_le below.le] at sse
      refine ⟨?_, fun result after done => (plain.leaves result after done).1,
        fun result after done => (sse.leaves result after done).1⟩
      by_cases accepted : Accepted env cfg db entries
      · obtain ⟨r, after, done⟩ := plain.commits.mpr accepted
        obtain ⟨r', after', done'⟩ := sse.commits.mpr ((settings _).mpr accepted)
        obtain ⟨⟨rows, copied, left⟩, count, dropped⟩ := plain.leaves r after done
        obtain ⟨⟨rows', copied', left'⟩, count', dropped'⟩ := sse.leaves r' after' done'
        obtain rfl : rows = rows' := Except.ok.inj (copied.symm.trans copied')
        exact Or.inr ⟨r, after, r', after', done, done', left.trans left'.symm,
          count.trans count'.symm, dropped.trans dropped'.symm⟩
      · refine Or.inl ⟨?_, ?_⟩
        · exact Option.eq_none_iff_forall_ne_some.mpr fun ⟨r, after⟩ done =>
            accepted (plain.commits.mp ⟨r, after, done⟩)
        · exact Option.eq_none_iff_forall_ne_some.mpr fun ⟨r, after⟩ done =>
            accepted ((settings _).mp (sse.commits.mp ⟨r, after, done⟩))
    · have fails : committed (pullOnecProductCatalogSse { other with resolve := env.resolve } cfg
          (serving entries) timings {}) db = none :=
        Option.eq_none_iff_forall_ne_some.mpr fun ⟨r, after⟩ done =>
          either.resolve_left below ⟨r, after, done⟩
      rw [plain_limit (Nat.le_of_not_lt below), fails]
      refine ⟨Or.inl ⟨rfl, rfl⟩, ?_, ?_⟩ <;>
        · intro result after done
          cases done

section Sample

def folder : Json := .object [("Code", .string "00-0"), ("IsFolder", .bool true)]

def longCatalogue : List Json := List.replicate kMaxRows folder ++ sampleEntries

theorem longCatalogue_taken : longCatalogue.take kMaxRows = List.replicate kMaxRows folder := by
  rw [longCatalogue, List.take_append_of_le_length (by simp)]
  simp

theorem rawRows_folders (n : Nat) : rawRows (List.replicate n folder) = [] := by
  induction n with
  | zero => rfl
  | succ n ih =>
      rw [List.replicate_succ, ← List.singleton_append, rawRows_append, ih]
      rfl

theorem normalize_nil (m : String) : normalizeOnecProductCatalog [] m = [] := by
  simp [normalizeOnecProductCatalog, byRef]

def linkedDb : CatalogDb := { oldDb with stocks := some .empty }

/-- The first pull refuses the catalogue; the second one replaces the products by none at all. -/
theorem long_catalogue_truncated :
    ¬ (Agree (committed (pullOnecProductCatalog sampleEnv sampleConfig (serving longCatalogue) 1)
          linkedDb)
        (committed (pullOnecProductCatalogSse sampleEnv sampleConfig (serving longCatalogue)
          ⟨0, fun _ => 0, 0⟩ {}) linkedDb)) ∧
      ∃ result after, committed (pullOnecProductCatalogSse sampleEnv sampleConfig
          (serving longCatalogue) ⟨0, fun _ => 0, 0⟩ {}) linkedDb = some (result, after) ∧
        result.accepted = 0 := by
  have sse : Outcome sampleEnv sampleConfig linkedDb (longCatalogue.take kMaxRows) _ :=
    sse_outcome ⟨0, fun _ => 0, 0⟩
  have accepted : Accepted sampleEnv sampleConfig linkedDb (longCatalogue.take kMaxRows) := by
    rw [longCatalogue_taken]
    refine ⟨by decide, ⟨bytes "https://93.184.216.34/base/", by decide +kernel⟩,
      fun table => by cases table <;> rfl, [], ?_⟩
    rw [rawRows_folders, normalize_nil]
    exact ⟨rfl, List.nodup_nil, List.nodup_nil⟩
  have reached : kMaxRows ≤ longCatalogue.length := by
    rw [longCatalogue, List.length_append, List.length_replicate]
    exact Nat.le_add_right _ _
  obtain ⟨result, after, done⟩ := sse.commits.mpr accepted
  have count := (sse.leaves result after done).2.1
  rw [longCatalogue_taken, rawRows_folders, normalize_nil] at count
  refine ⟨?_, result, after, done, count⟩
  rintro (⟨-, fails⟩ | ⟨r, stored, -, -, plain, -⟩)
  · rw [done] at fails
    cases fails
  · rw [plain_limit reached] at plain
    cases plain

end Sample

end Scand.Catalog.Truncation
