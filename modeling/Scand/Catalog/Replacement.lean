/- path: Scand/Catalog/Replacement
   layer: results
   digest: When the statements of a catalogue pull can be committed, and what they leave then. -/

import Scand.Catalog.Pull
import Scand.Foundation.WorkQueue

set_option autoImplicit false
set_option relaxedAutoImplicit false

namespace Scand.Catalog.Replacement

open Scand.Catalog.Database
open Scand.Catalog.Normalize
open Scand.Catalog.Pull
open Scand.Foundation.KeyedTable
open Scand.Foundation.Transaction
open Scand.Foundation.WorkQueue (forall₂_mem_right)
open Scand.Inventory.Database

/-- The rows of a COPY, where the columns take its texts and keep codes and references apart. -/
def Storable (tenantId instant : Int) (records : List OneCProductRecord) (rows : List CatalogRow) :
    Prop :=
  records.mapM (storedRow tenantId instant) = .ok rows ∧
    (rows.map CatalogRow.code).Nodup ∧ (rows.map CatalogRow.refKey).Nodup

def replacedRows (tenantId : Int) (db : CatalogDb) (rows : List CatalogRow) : List CatalogRow :=
  (db.products.rows.filter fun r => !decide (r.tenantId = tenantId)) ++ rows

/-- Every link row got its code from the new products. -/
def FilledTable {ρ κ : Type} {key : ρ → κ} (cols : LinkColumns ρ key) (tenantId : Int)
    (products : List CatalogRow) : Option (Table ρ key) → Option (Table ρ key) → Prop
  | some t, some t' => List.Forall₂ (cols.FilledRow tenantId products) t.rows t'.rows
  | none, none => True
  | _, _ => False

structure Replaced (tenantId : Int) (rows : List CatalogRow) (db db' : CatalogDb) : Prop where
  products : db'.products.rows = replacedRows tenantId db rows
  stocks : FilledTable stockColumns tenantId db'.products.rows db.stocks db'.stocks
  costBatch : FilledTable costBatchColumns tenantId db'.products.rows db.costBatch db'.costBatch
  costSupplier :
    FilledTable costSupplierColumns tenantId db'.products.rows db.costSupplier db'.costSupplier

section Copies

variable {tenantId instant : Int} {records : List OneCProductRecord} {rows : List CatalogRow}
  {db db' : CatalogDb}

theorem storedRow_tenant {rec : OneCProductRecord} {row : CatalogRow}
    (stored : storedRow tenantId instant rec = .ok row) : row.tenantId = tenantId := by
  unfold storedRow at stored
  simp only [bind, Except.bind, pure, Except.pure] at stored
  repeat' split at stored
  all_goals cases stored
  rfl

theorem storable_tenant (copied : records.mapM (storedRow tenantId instant) = .ok rows) :
    ∀ row ∈ rows, row.tenantId = tenantId := by
  intro row mem
  obtain ⟨rec, -, stored⟩ := forall₂_mem_right (mapM_ok_iff.mp copied) mem
  exact storedRow_tenant stored

theorem nodup_column (column : CatalogRow → String) (mine : ∀ row ∈ rows, row.tenantId = tenantId) :
    (rows.map fun row => (row.tenantId, column row)).Nodup ↔ (rows.map column).Nodup := by
  have same : (rows.map fun row => (row.tenantId, column row)) =
      (rows.map column).map fun text => (tenantId, text) := by
    rw [List.map_map]
    exact List.map_congr_left fun row mem => by simp [mine row mem]
  rw [same, List.nodup_map_iff (fun a b equal => congrArg Prod.snd equal)]

theorem replaced_fresh (db : CatalogDb) (mine : ∀ row ∈ rows, row.tenantId = tenantId) :
    ∀ row ∈ rows, row.key ∉ (deleteProducts tenantId db).products.keys := by
  intro row mem taken
  obtain ⟨old, kept, same⟩ := List.mem_map.mp taken
  have other : ¬ old.tenantId = tenantId := by
    simpa [deleteProducts] using (List.mem_filter.mp kept).2
  exact other ((congrArg Prod.fst same).trans (mine row mem))

theorem nodup_replaced (db : CatalogDb) {column : CatalogRow → String}
    (mine : ∀ row ∈ rows, row.tenantId = tenantId)
    (old : (db.products.rows.map fun row => (row.tenantId, column row)).Nodup)
    (new : (rows.map column).Nodup) :
    ((replacedRows tenantId db rows).map fun row => (row.tenantId, column row)).Nodup := by
  rw [replacedRows, List.map_append]
  refine List.nodup_append.mpr ⟨old.sublist (List.filter_sublist.map _), (nodup_column _ mine).mpr new,
    ?_⟩
  rintro a kept b added rfl
  obtain ⟨row, mem, rfl⟩ := List.mem_map.mp kept
  obtain ⟨row', mem', same⟩ := List.mem_map.mp added
  have other : ¬ row.tenantId = tenantId := by simpa using (List.mem_filter.mp mem).2
  exact other ((congrArg Prod.fst same).symm.trans (mine row' mem'))

theorem copy_iff : copyProducts tenantId instant records (deleteProducts tenantId db) = .ok db' ↔
    ∃ rows, Storable tenantId instant records rows ∧
      db'.products.rows = replacedRows tenantId db rows ∧ db'.stocks = db.stocks ∧
      db'.costBatch = db.costBatch ∧ db'.costSupplier = db.costSupplier := by
  unfold copyProducts
  cases read : records.mapM (storedRow tenantId instant) with
  | error e =>
      constructor
      · intro none_left
        cases none_left
      · rintro ⟨rows, ⟨copied, -⟩, -⟩
        rw [read] at copied
        cases copied
  | ok rows =>
      have mine := storable_tenant read
      have one : ∀ other, Storable tenantId instant records other → other = rows := by
        rintro other ⟨copied, -⟩
        rw [read] at copied
        exact (Except.ok.inj copied).symm
      by_cases codes : (rows.map CatalogRow.code).Nodup
      · obtain ⟨t, inserted, all⟩ := Table.insertAll_ok (replaced_fresh db mine)
          ((nodup_column CatalogRow.code mine).mpr codes)
        simp only [inserted]
        have stored : t.rows = replacedRows tenantId db rows := all
        split
        · rename_i unique
          have refs : (rows.map CatalogRow.refKey).Nodup := by
            refine (nodup_column _ mine).mp (unique.sublist ?_)
            rw [stored, replacedRows, List.map_append]
            exact List.sublist_append_right _ _
          constructor
          · intro same
            cases same
            exact ⟨rows, ⟨read, codes, refs⟩, stored, rfl, rfl, rfl⟩
          · rintro ⟨other, storable, products, stocks, costBatch, costSupplier⟩
            obtain rfl := one other storable
            obtain ⟨⟨_, _⟩, _, _, _, _⟩ := db'
            cases t
            simp_all [deleteProducts]
        · rename_i repeated
          constructor
          · intro none_left
            cases none_left
          · rintro ⟨other, storable, -⟩
            obtain rfl := one other storable
            refine absurd ?_ repeated
            rw [stored]
            exact nodup_replaced db mine db.products_ref_unique storable.2.2
      · have refused : ∀ t, (deleteProducts tenantId db).products.insertAll rows ≠ .ok t := by
          intro t inserted
          obtain ⟨-, all⟩ := Table.insertAll_rows inserted
          have unique := t.unique
          rw [all, List.map_append] at unique
          exact codes ((nodup_column _ mine).mp (unique.sublist (List.sublist_append_right _ _)))
        cases inserted : (deleteProducts tenantId db).products.insertAll rows with
        | ok t => exact absurd inserted (refused t)
        | error e =>
            simp only [inserted]
            constructor
            · intro none_left
              cases none_left
            · rintro ⟨other, storable, -⟩
              obtain rfl := one other storable
              exact absurd storable.2.1 codes

end Copies

section Statements

variable {env : Env} {tenantId : Int} {records : List OneCProductRecord} {rows : List CatalogRow}
  {db db' : CatalogDb} {n : Nat}

theorem migrate_stocks :
    migrate env.joining tenantId .inventory1cStocks db = .ok (db', n) ↔ ∃ t, db.stocks = some t ∧
      db' = { db with
        stocks := some (stockColumns.migrate env.joining tenantId db.products.rows t).1 } ∧
      n = (stockColumns.migrate env.joining tenantId db.products.rows t).2 := by
  cases stocks : db.stocks <;> simp [migrate, stocks, eq_comm]

theorem migrate_costBatch :
    migrate env.joining tenantId .pricingCostBatch db = .ok (db', n) ↔ ∃ t, db.costBatch = some t ∧
      db' = { db with
        costBatch := some (costBatchColumns.migrate env.joining tenantId db.products.rows t).1 } ∧
      n = (costBatchColumns.migrate env.joining tenantId db.products.rows t).2 := by
  cases costBatch : db.costBatch <;> simp [migrate, costBatch, eq_comm]

theorem migrate_costSupplier :
    migrate env.joining tenantId .pricingCostSupplier db = .ok (db', n) ↔
      ∃ t, db.costSupplier = some t ∧
      db' = { db with
        costSupplier :=
          some (costSupplierColumns.migrate env.joining tenantId db.products.rows t).1 } ∧
      n = (costSupplierColumns.migrate env.joining tenantId db.products.rows t).2 := by
  cases costSupplier : db.costSupplier <;> simp [migrate, costSupplier, eq_comm]

def migrated (env : Env) (tenantId : Int) (db : CatalogDb) : CatalogDb :=
  { db with
    stocks := db.stocks.map fun t =>
      (stockColumns.migrate env.joining tenantId db.products.rows t).1
    costBatch := db.costBatch.map fun t =>
      (costBatchColumns.migrate env.joining tenantId db.products.rows t).1
    costSupplier := db.costSupplier.map fun t =>
      (costSupplierColumns.migrate env.joining tenantId db.products.rows t).1 }

def migratedCount (env : Env) (tenantId : Int) (db : CatalogDb) : Nat :=
  ((db.stocks.map fun t =>
      (stockColumns.migrate env.joining tenantId db.products.rows t).2).getD 0) +
    ((db.costBatch.map fun t =>
      (costBatchColumns.migrate env.joining tenantId db.products.rows t).2).getD 0) +
    (db.costSupplier.map fun t =>
      (costSupplierColumns.migrate env.joining tenantId db.products.rows t).2).getD 0

def Linked (db : CatalogDb) : Prop := ∀ table, db.has table = true

theorem linked_iff : Linked db ↔ (∃ t, db.stocks = some t) ∧ (∃ t, db.costBatch = some t) ∧
    ∃ t, db.costSupplier = some t := by
  constructor
  · intro linked
    exact ⟨Option.isSome_iff_exists.mp (linked .inventory1cStocks),
      Option.isSome_iff_exists.mp (linked .pricingCostBatch),
      Option.isSome_iff_exists.mp (linked .pricingCostSupplier)⟩
  · rintro ⟨stocks, costBatch, costSupplier⟩ table
    cases table
    · exact Option.isSome_iff_exists.mpr stocks
    · exact Option.isSome_iff_exists.mpr costBatch
    · exact Option.isSome_iff_exists.mpr costSupplier

theorem sound_safeMigrate (env : Env) (tenantId : Int) (table : LinkTable) :
    Work.Sound (safeMigrate env tenantId table) :=
  (Work.sound_exec _).recover _ _

theorem runs_safeMigrate {table : LinkTable} {tx : Tx CatalogDb} :
    Work.Runs (safeMigrate env tenantId table) tx n db' ↔
      tx.failed = false ∧ migrate env.joining tenantId table tx.now = .ok (db', n) :=
  Work.runs_recover_exec.trans Work.runs_exec

theorem sound_replaceProducts : Work.Sound (replaceProducts env tenantId records) :=
  (Work.sound_exec _).bind fun _ => (Work.sound_exec _).bind fun _ =>
    (sound_safeMigrate env tenantId _).bind fun _ => (sound_safeMigrate env tenantId _).bind fun _ =>
      (sound_safeMigrate env tenantId _).bind fun _ => Work.sound_pure _

theorem copy_statement_iff : (if records = [] then .ok (deleteProducts tenantId db, ())
      else (copyProducts tenantId env.instant records (deleteProducts tenantId db)).map
        fun db => (db, ())) = (.ok (db', ()) : Except SqlFailure (CatalogDb × Unit)) ↔
    ∃ rows, Storable tenantId env.instant records rows ∧
      db'.products.rows = replacedRows tenantId db rows ∧ db'.stocks = db.stocks ∧
      db'.costBatch = db.costBatch ∧ db'.costSupplier = db.costSupplier := by
  by_cases nothing : records = []
  · subst nothing
    rw [if_pos rfl]
    constructor
    · intro same
      cases same
      exact ⟨[], ⟨rfl, List.nodup_nil, List.nodup_nil⟩, (List.append_nil _).symm, rfl, rfl, rfl⟩
    · rintro ⟨rows, ⟨copied, -⟩, products, stocks, costBatch, costSupplier⟩
      obtain rfl : [] = rows := Except.ok.inj copied
      obtain ⟨⟨_, _⟩, _, _, _, _⟩ := db'
      simp_all [deleteProducts, replacedRows, Table.delete]
  · rw [if_neg nothing, ← copy_iff]
    cases copied : copyProducts tenantId env.instant records (deleteProducts tenantId db) <;>
      simp [Except.map]

theorem runs_replaceProducts :
    Work.Runs (replaceProducts env tenantId records) (Tx.opened db) n db' ↔
      ∃ copied rows, (Storable tenantId env.instant records rows ∧
        copied.products.rows = replacedRows tenantId db rows ∧ copied.stocks = db.stocks ∧
        copied.costBatch = db.costBatch ∧ copied.costSupplier = db.costSupplier) ∧
        Linked copied ∧ db' = migrated env tenantId copied ∧
        n = migratedCount env tenantId copied := by
  have copy_sound := Work.sound_exec fun db : CatalogDb =>
    if records = [] then (.ok (db, ()) : Except SqlFailure (CatalogDb × Unit))
    else (copyProducts tenantId env.instant records db).map fun db => (db, ())
  have last : ∀ stocks costBatch costSupplier,
      Work.Sound (pure (stocks + costBatch + costSupplier) : Work CatalogDb SqlFailure Nat) :=
    fun _ _ _ => Work.sound_pure _
  have third : ∀ stocks costBatch, Work.Sound (safeMigrate env tenantId .pricingCostSupplier >>=
      fun costSupplier => pure (stocks + costBatch + costSupplier)) :=
    fun stocks costBatch => (sound_safeMigrate env tenantId _).bind (last stocks costBatch)
  have second : ∀ stocks, Work.Sound (safeMigrate env tenantId .pricingCostBatch >>=
      fun costBatch => safeMigrate env tenantId .pricingCostSupplier >>=
      fun costSupplier => pure (stocks + costBatch + costSupplier)) :=
    fun stocks => (sound_safeMigrate env tenantId _).bind (third stocks)
  have first := (sound_safeMigrate env tenantId .inventory1cStocks).bind second
  have rest : ∀ _ : Unit, Work.Sound _ := fun _ => first
  have all : ∀ _ : Unit, Work.Sound _ := fun _ => copy_sound.bind rest
  unfold replaceProducts
  simp only [Work.runs_bind (Work.sound_exec _) all, Work.runs_bind copy_sound rest,
    Work.runs_bind (sound_safeMigrate env tenantId _) second,
    Work.runs_bind (sound_safeMigrate env tenantId _) (third _),
    Work.runs_bind (sound_safeMigrate env tenantId _) (last _ _), Work.runs_exec, runs_safeMigrate,
    Work.runs_pure, migrate_stocks, migrate_costBatch, migrate_costSupplier, Tx.opened, true_and]
  constructor
  · rintro ⟨_, cleared, same, _, copied, copying, stocks, _, ⟨t₁, at_stocks, rfl, rfl⟩, costBatch, _,
      ⟨t₂, at_batch, rfl, rfl⟩, costSupplier, _, ⟨t₃, at_supplier, rfl, rfl⟩, rfl, rfl⟩
    cases same
    obtain ⟨rows, stored⟩ := copy_statement_iff.mp copying
    refine ⟨copied, rows, stored, linked_iff.mpr ⟨⟨t₁, at_stocks⟩, ⟨t₂, at_batch⟩, ⟨t₃, at_supplier⟩⟩,
      ?_, ?_⟩
    · simp [migrated, at_stocks, show copied.costBatch = some t₂ from at_batch,
        show copied.costSupplier = some t₃ from at_supplier]
    · simp [migratedCount, at_stocks, show copied.costBatch = some t₂ from at_batch,
        show copied.costSupplier = some t₃ from at_supplier]
  · rintro ⟨copied, rows, stored, linked, rfl, rfl⟩
    obtain ⟨⟨t₁, at_stocks⟩, ⟨t₂, at_batch⟩, t₃, at_supplier⟩ := linked_iff.mp linked
    refine ⟨(), _, rfl, (), copied, copy_statement_iff.mpr ⟨rows, stored⟩, _, _,
      ⟨t₁, at_stocks, rfl, rfl⟩, _, _, ⟨t₂, at_batch, rfl, rfl⟩, _, _, ⟨t₃, at_supplier, rfl, rfl⟩,
      ?_, ?_⟩
    · simp [migratedCount, at_stocks, at_batch, at_supplier]
    · simp [migrated, at_stocks, at_batch, at_supplier]

end Statements

section Returns

variable {env : Env} {tenantId : Int} {records : List OneCProductRecord} {db : CatalogDb}
  {table : LinkTable} {tx : Tx CatalogDb}

theorem migrate_present (env : Env) (tenantId : Int) (present : db.has table = true) :
    ∃ db' n, migrate env.joining tenantId table db = .ok (db', n) ∧
      ∀ other, db'.has other = db.has other := by
  cases table
  case inventory1cStocks =>
    obtain ⟨t, stocks⟩ := Option.isSome_iff_exists.mp present
    refine ⟨_, _, migrate_stocks.mpr ⟨t, stocks, rfl, rfl⟩, fun other => ?_⟩
    cases other <;> simp [CatalogDb.has, stocks]
  case pricingCostBatch =>
    obtain ⟨t, costBatch⟩ := Option.isSome_iff_exists.mp present
    refine ⟨_, _, migrate_costBatch.mpr ⟨t, costBatch, rfl, rfl⟩, fun other => ?_⟩
    cases other <;> simp [CatalogDb.has, costBatch]
  case pricingCostSupplier =>
    obtain ⟨t, costSupplier⟩ := Option.isSome_iff_exists.mp present
    refine ⟨_, _, migrate_costSupplier.mpr ⟨t, costSupplier, rfl, rfl⟩, fun other => ?_⟩
    cases other <;> simp [CatalogDb.has, costSupplier]

theorem safeMigrate_present (env : Env) (tenantId : Int) (tx : Tx CatalogDb)
    (fine : tx.failed = false) (present : tx.now.has table = true) :
    ∃ n db', safeMigrate env tenantId table tx = (.ok n, { tx with now := db' }) ∧
      ∀ other, db'.has other = tx.now.has other := by
  obtain ⟨db', n, accepted, same⟩ := migrate_present env tenantId present
  exact ⟨n, db', Work.recover_ok (Work.exec_ok fine accepted), same⟩

theorem safeMigrate_absent (fine : tx.failed = false) (absent : tx.now.has table = false) :
    safeMigrate env tenantId table tx = (.ok 0, { tx with failed := true }) :=
  Work.recover_exec_refused fine (migrate_absent absent) rfl

theorem safeMigrate_failed (failed : tx.failed = true) :
    safeMigrate env tenantId table tx = (.error .inFailedTransaction, tx) :=
  Work.recover_exec_failed failed

theorem replace_returns_iff :
    (∃ n tx', replaceProducts env tenantId records (Tx.opened db) = (.ok n, tx')) ↔
      (∃ rows, Storable tenantId env.instant records rows) ∧ db.has .inventory1cStocks = true ∧
        db.has .pricingCostBatch = true := by
  have cleared : Work.exec (fun db => (.ok (deleteProducts tenantId db, ()) :
      Except SqlFailure (CatalogDb × Unit))) (Tx.opened db) =
      (.ok (), { Tx.opened db with now := deleteProducts tenantId db }) := Work.exec_ok rfl rfl
  unfold replaceProducts
  rw [Work.bind_ok cleared]
  cases copying : (if records = [] then .ok (deleteProducts tenantId db, ())
      else (copyProducts tenantId env.instant records (deleteProducts tenantId db)).map
        fun db => (db, ()) : Except SqlFailure (CatalogDb × Unit)) with
  | error e =>
      rw [Work.bind_error (Work.exec_refused rfl copying)]
      constructor
      · rintro ⟨n, tx', none_left⟩
        cases none_left
      · rintro ⟨⟨rows, storable⟩, -⟩
        have unique := nodup_replaced db (storable_tenant storable.1) db.products.unique
          storable.2.1
        have refs := nodup_replaced db (storable_tenant storable.1) db.products_ref_unique
          storable.2.2
        have copied := copy_statement_iff.mpr ⟨rows, storable,
          show (⟨⟨replacedRows tenantId db rows, unique⟩, refs, db.stocks, db.costBatch,
            db.costSupplier⟩ : CatalogDb).products.rows = _ from rfl, rfl, rfl, rfl⟩
        rw [copying] at copied
        cases copied
  | ok next =>
      obtain ⟨copied, ⟨⟩⟩ := next
      rw [Work.bind_ok (Work.exec_ok rfl copying)]
      obtain ⟨rows, storable, -, stocks, costBatch, costSupplier⟩ := copy_statement_iff.mp copying
      have has : ∀ table, copied.has table = db.has table := by
        intro table
        cases table <;> simp only [CatalogDb.has, stocks, costBatch, costSupplier]
      cases first : db.has .inventory1cStocks with
      | false =>
          rw [Work.bind_ok (safeMigrate_absent rfl ((has _).trans first)),
            Work.bind_error (safeMigrate_failed rfl)]
          simp
      | true =>
          obtain ⟨n₁, db₁, ran₁, same₁⟩ := safeMigrate_present env tenantId
            { Tx.opened db with now := copied } rfl ((has _).trans first)
          rw [Work.bind_ok ran₁]
          cases second : db.has .pricingCostBatch with
          | false =>
              rw [Work.bind_ok (safeMigrate_absent rfl ((same₁ _).trans ((has _).trans second))),
                Work.bind_error (safeMigrate_failed rfl)]
              simp
          | true =>
              obtain ⟨n₂, db₂, ran₂, same₂⟩ := safeMigrate_present env tenantId
                { Tx.opened db with now := db₁ } rfl ((same₁ _).trans ((has _).trans second))
              rw [Work.bind_ok ran₂]
              refine ⟨fun _ => ⟨⟨rows, storable⟩, rfl, rfl⟩, fun _ => ?_⟩
              cases third : db₂.has .pricingCostSupplier with
              | false => exact ⟨_, _, by rw [Work.bind_ok (safeMigrate_absent rfl third)]; rfl⟩
              | true =>
                  obtain ⟨n₃, db₃, ran₃, -⟩ := safeMigrate_present env tenantId
                    { Tx.opened db with now := db₂ } rfl third
                  exact ⟨_, _, by rw [Work.bind_ok ran₃]; rfl⟩

end Returns

section Committed

variable {env : Env} {cfg : Config} {server : Server} {tenantId : Int}
  {records : List OneCProductRecord} {rows : List CatalogRow} {db db' copied : CatalogDb} {n : Nat}
  {result : PullResult}

theorem filledTable_migrate {ρ κ : Type} {key : ρ → κ} (cols : LinkColumns ρ key)
    (products : List CatalogRow) (t : Option (Table ρ key)) :
    FilledTable cols tenantId products t
      (t.map fun t => (cols.migrate env.joining tenantId products t).1) := by
  cases t with
  | none => trivial
  | some t =>
      refine List.forall₂_map_right_iff.mpr (List.forall₂_same.mpr fun r _ => ?_)
      exact cols.filledRow_filled env.joining tenantId products r

theorem replaced_of_runs
    (ran : Work.Runs (replaceProducts env tenantId records) (Tx.opened db) n db') :
    Linked db ∧ ∃ rows, Storable tenantId env.instant records rows ∧ Replaced tenantId rows db db' := by
  obtain ⟨copied, rows, ⟨storable, products, stocks, costBatch, costSupplier⟩, linked, rfl, -⟩ :=
    runs_replaceProducts.mp ran
  refine ⟨?_, rows, storable, products, ?_, ?_, ?_⟩
  · rwa [linked_iff, stocks, costBatch, costSupplier, ← linked_iff] at linked
  · rw [← stocks]
    exact filledTable_migrate stockColumns _ _
  · rw [← costBatch]
    exact filledTable_migrate costBatchColumns _ _
  · rw [← costSupplier]
    exact filledTable_migrate costSupplierColumns _ _

theorem replace_runs_iff :
    (∃ n db', Work.Runs (replaceProducts env tenantId records) (Tx.opened db) n db') ↔
      Linked db ∧ ∃ rows, Storable tenantId env.instant records rows := by
  constructor
  · rintro ⟨n, db', ran⟩
    obtain ⟨linked, rows, storable, -⟩ := replaced_of_runs ran
    exact ⟨linked, rows, storable⟩
  · rintro ⟨linked, rows, storable⟩
    have unique := nodup_replaced db (storable_tenant storable.1) db.products.unique storable.2.1
    have refs := nodup_replaced db (storable_tenant storable.1) db.products_ref_unique
      storable.2.2
    let copied : CatalogDb := { db with
      products := ⟨replacedRows tenantId db rows, unique⟩
      products_ref_unique := refs }
    have still : Linked copied := linked_iff.mpr (linked_iff.mp linked)
    exact ⟨_, _, runs_replaceProducts.mpr
      ⟨copied, rows, ⟨storable, rfl, rfl, rfl, rfl⟩, still, rfl, rfl⟩⟩

theorem committed_replace {ε : Type} {pull : Tx CatalogDb → Pulled ε} {onOk : Nat → PullResult}
    {work : Work CatalogDb SqlFailure Nat} (sound : work.Sound)
    (pulls : ∀ tx, (pull tx).tx = (work tx).2 ∧
      (pull tx).outcome = ((work tx).1.mapError PullError.sql).map onOk) :
    committed pull db = some (result, db') ↔ ∃ n, work.Runs (Tx.opened db) n db' ∧ result = onOk n := by
  obtain ⟨left, ended⟩ := pulls (Tx.opened db)
  simp only [committed, left, ended, sound.runs_iff]
  cases (work (Tx.opened db)).1 with
  | error e => simp [Except.map, Except.mapError]
  | ok n => simp [Except.map, Except.mapError, and_comm, eq_comm]

theorem committed_pull_iff :
    committed (pullOnecProductCatalog env cfg server tenantId) db = some (result, db') ↔
      cfg.complete = true ∧ ∃ rawRows, readAllRows env cfg server = .ok rawRows ∧
        ∃ n, Work.Runs (replaceProducts env tenantId
            (normalizeOnecProductCatalog rawRows env.measuredAt)) (Tx.opened db) n db' ∧
          result = {
            accepted := (normalizeOnecProductCatalog rawRows env.measuredAt).length
            migrated := n
            conflicts := countDropped [] rawRows
            measuredAt := env.measuredAt } := by
  cases configured : cfg.complete with
  | false => simp [committed, pullOnecProductCatalog, configured]
  | true =>
      cases read : readAllRows env cfg server with
      | error text => simp [committed, pullOnecProductCatalog, configured, read]
      | ok rawRows =>
          simp only [Except.ok.injEq, exists_eq_left', true_and]
          refine committed_replace sound_replaceProducts fun tx => ?_
          simp only [pullOnecProductCatalog, configured, read, Bool.true_eq_false, if_false]
          rcases replaceProducts env tenantId _ tx with ⟨_ | _, _⟩ <;> exact ⟨rfl, rfl⟩

theorem committed_sse_iff {timings : Timings} {opts : PullOptions} :
    committed (pullOnecProductCatalogSse env cfg server timings opts) db = some (result, db') ↔
      cfg.complete = true ∧ ∃ base, publicationUrl env cfg = .ok base ∧
        (∀ offset e, (pagesOf cfg server base opts.pageSize opts.maxRows).ending ≠ .failed offset e) ∧
        ∃ n, Work.Runs (replaceProducts env opts.tenantId (normalizeOnecProductCatalog
            (pagesOf cfg server base opts.pageSize opts.maxRows).rows env.measuredAt))
            (Tx.opened db) n db' ∧
          result = {
            accepted := (normalizeOnecProductCatalog
              (pagesOf cfg server base opts.pageSize opts.maxRows).rows env.measuredAt).length
            migrated := n
            conflicts := countDropped [] (pagesOf cfg server base opts.pageSize opts.maxRows).rows
            measuredAt := env.measuredAt } := by
  cases configured : cfg.complete with
  | false => simp [committed, pullOnecProductCatalogSse, configured]
  | true =>
      cases address : publicationUrl env cfg with
      | error text => simp [committed, pullOnecProductCatalogSse, configured, address]
      | ok base =>
          simp only [Except.ok.injEq, exists_eq_left', true_and]
          cases ending : (pagesOf cfg server base opts.pageSize opts.maxRows).ending with
          | failed offset e =>
              simp [committed, pullOnecProductCatalogSse, configured, address, ending]
          | _ =>
              simp only [ne_eq, reduceCtorEq, not_false_eq_true, implies_true, true_and]
              refine committed_replace sound_replaceProducts fun tx => ?_
              simp only [pullOnecProductCatalogSse, configured, address, ending, Bool.true_eq_false,
                if_false]
              rcases replaceProducts env opts.tenantId _ tx with ⟨_ | _, _⟩ <;> exact ⟨rfl, rfl⟩

end Committed

end Scand.Catalog.Replacement
