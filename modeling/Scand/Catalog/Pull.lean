/- path: Scand/Catalog/Pull
   layer: code model
   digest: read_all_rows, pull_onec_product_catalog and pull_onec_product_catalog_sse, with what they
   report and the statements of their transaction. -/

import Scand.Catalog.Database
import Scand.Foundation.Transaction
import Scand.Onec.UrlNormalizer

set_option autoImplicit false
set_option relaxedAutoImplicit false

namespace Scand.Catalog.Pull

open Scand.Catalog.Database
open Scand.Catalog.Normalize
open Scand.Foundation.InternetAddress (Text)
open Scand.Foundation.JsonValue
open Scand.Foundation.Transaction (Refusal Tx Work)
open Scand.Onec.Strings (Resolver)
open Scand.Onec.UrlNormalizer (normalizeOnecPublicationUrl)

structure Config where
  onecBaseUrl : String := ""
  onecUser : String := ""
  onecPassword : String := ""
  onecAllowInsecureHttp : Bool := false
  onecTimeoutMs : Int := 0

def Config.complete (cfg : Config) : Bool :=
  cfg.onecBaseUrl ≠ "" && cfg.onecUser ≠ "" && cfg.onecPassword ≠ ""

structure PageRequest where
  url : Text
  params : List (String × String)
  top : Nat
  skip : Nat
  username : String
  password : String
  timeoutMs : Int

abbrev Server := PageRequest → HttpReply

/-- The surroundings of a pull: the resolver, the choices of PostgreSQL, and the clock, as the text
that is stored and the instant that it stands for. -/
structure Env where
  resolve : Resolver
  joining : Joining
  measuredAt : String
  instant : Int

def bytes (s : String) : Text :=
  (s.toList.flatMap String.utf8EncodeChar).map fun b => Char.ofNat b.toNat

def odataRoot (base : Text) : Text :=
  (base.reverse.dropWhile (· = '/')).reverse ++ bytes "/odata/standard.odata"

def pageRequest (cfg : Config) (base : Text) (pageSize offset : Nat) : PageRequest where
  url := odataRoot base ++ bytes "/Catalog_Номенклатура"
  params := [("$format", "json"),
    ("$select", "Ref_Key,Code,Артикул,Description,DeletionMark,IsFolder"), ("$orderby", "Code")]
  top := pageSize
  skip := offset
  username := cfg.onecUser
  password := cfg.onecPassword
  timeoutMs := cfg.onecTimeoutMs

inductive PageError
  | http (status : Int)
  | json (what : String)
  | notObject
  | noValue

def readPage (r : HttpReply) : Except PageError (List Json) :=
  if r.statusCode ≠ 200 then .error (.http r.statusCode)
  else
    match r.body with
    | .error what => .error (.json what)
    | .ok (.object obj) =>
        match (obj.lookup "value").bind Json.asArray? with
        | none => .error .noValue
        | some items => .ok items
    | .ok _ => .error .notObject

inductive Ending
  | limit (offset : Nat)
  | empty (offset : Nat)
  | short (offset : Nat)
  | failed (offset : Nat) (e : PageError)

def Ending.offset : Ending → Nat
  | .limit offset | .empty offset | .short offset | .failed offset _ => offset

structure PagesRead where
  pages : List (Nat × List Json)
  ending : Ending

/-- The page loop that both pulls have; only a full page leads to another request. -/
def readPages (read : Nat → Except PageError (List Json)) (pageSize maxRows offset : Nat) : PagesRead :=
  if offset < maxRows then
    match read offset with
    | .error e => ⟨[], .failed offset e⟩
    | .ok items =>
        if items = [] then ⟨[], .empty offset⟩
        else if items.length < pageSize then ⟨[(offset, items)], .short offset⟩
        else
          let rest := readPages read pageSize maxRows (offset + items.length)
          ⟨(offset, items) :: rest.pages, rest.ending⟩
  else ⟨[], .limit offset⟩
termination_by maxRows - offset
decreasing_by
  rename_i items_ne _
  have positive := List.length_pos_of_ne_nil items_ne
  omega

def PagesRead.rows (r : PagesRead) : List (List String) := r.pages.flatMap fun page => rawRows page.2

def kPageSize : Nat := 5000

def kMaxRows : Nat := 100000

def readAllRowsError : PageError → String
  | .http status => "1С вернула HTTP " ++ toString status ++ " при чтении каталога номенклатуры"
  | .json what => "1С вернула невалидный JSON: " ++ what
  | .notObject => "1С вернула не-объект"
  | .noValue => "1С вернула ответ без value[]"

def limitError : String := "Каталог 1С превышает безопасный лимит 100 000 позиций"

/-- The pages that are asked of 1C under an accepted address. -/
def pagesOf (cfg : Config) (server : Server) (base : Text) (pageSize maxRows : Nat) : PagesRead :=
  readPages (fun offset => readPage (server (pageRequest cfg base pageSize offset))) pageSize maxRows 0

def publicationUrl (env : Env) (cfg : Config) : Except String Text :=
  normalizeOnecPublicationUrl env.resolve (bytes cfg.onecBaseUrl)
    { allowInsecureHttp := cfg.onecAllowInsecureHttp }

def readAllRows (env : Env) (cfg : Config) (server : Server) : Except String (List (List String)) :=
  match publicationUrl env cfg with
  | .error e => .error e
  | .ok base =>
      let r := pagesOf cfg server base kPageSize kMaxRows
      match r.ending with
      | .failed _ e => .error (readAllRowsError e)
      | ending => if kMaxRows ≤ ending.offset then .error limitError else .ok r.rows

structure PullResult where
  accepted : Nat := 0
  migrated : Nat := 0
  conflicts : Nat := 0
  measuredAt : String := ""
  deriving DecidableEq

inductive PullError
  | thrown (text : String)
  | sql (e : Refusal SqlFailure)

def incompleteConfig : String := "В config.ini не заполнены [onec] base_url/user/password."

section Replace

variable (env : Env) (tenantId : Int)

def isUndefinedTable : SqlFailure → Bool
  | .undefinedTable _ => true
  | _ => false

/-- `safe_migrate`: a missing table counts as no row. -/
def safeMigrate (table : LinkTable) : Work CatalogDb SqlFailure Nat :=
  (Work.exec (migrate env.joining tenantId table)).recover isUndefinedTable 0

def replaceProducts (records : List OneCProductRecord) : Work CatalogDb SqlFailure Nat := do
  Work.exec fun db => .ok (deleteProducts tenantId db, ())
  Work.exec fun db =>
    if records = [] then .ok (db, ())
    else (copyProducts tenantId env.instant records db).map fun db => (db, ())
  let stocks ← safeMigrate env tenantId .inventory1cStocks
  let costBatch ← safeMigrate env tenantId .pricingCostBatch
  let costSupplier ← safeMigrate env tenantId .pricingCostSupplier
  return stocks + costBatch + costSupplier

end Replace

structure Progress where
  stage : String
  current : Int
  total : Int
  extraJson : String := ""
  deriving DecidableEq

def normalizeJson (raw normalized : Nat) : String :=
  "\x7b\"raw\":" ++ toString raw ++ ",\"normalized\":" ++ toString normalized ++ "\x7d"

/-- What a pull reports, how it ends, and the transaction that it leaves. -/
structure Pulled (ε : Type) where
  events : List ε
  outcome : Except PullError PullResult
  tx : Tx CatalogDb

def pullOnecProductCatalog (env : Env) (cfg : Config) (server : Server) (tenantId : Int)
    (tx : Tx CatalogDb) : Pulled Progress :=
  if cfg.complete = false then ⟨[], .error (.thrown incompleteConfig), tx⟩
  else
    match readAllRows env cfg server with
    | .error text => ⟨[], .error (.thrown text), tx⟩
    | .ok rawRows =>
        let records := normalizeOnecProductCatalog rawRows env.measuredAt
        let normalize : Progress := {
          stage := "normalize"
          current := rawRows.length
          total := records.length
          extraJson := normalizeJson rawRows.length records.length }
        let save : Progress := { stage := "save", current := 0, total := records.length }
        match replaceProducts env tenantId records tx with
        | (.error e, tx) => ⟨[normalize, save], .error (.sql e), tx⟩
        | (.ok migrated, tx) =>
            ⟨[normalize, save, { stage := "migrate", current := migrated, total := 0 }],
              .ok {
                accepted := records.length
                migrated := migrated
                conflicts := countDropped [] rawRows
                measuredAt := env.measuredAt }, tx⟩

structure PullOptions where
  tenantId : Int := 1
  pageSize : Nat := 5000
  maxRows : Nat := 100000
  eventName : String := "product_catalog_progress"

structure PcEvent where
  eventName : String
  body : Fields

structure Timings where
  connected : Int
  page : Nat → Int
  saved : Int

section Events

variable (opts : PullOptions) (timings : Timings)

def pcEvent (stage status : String) (extra : Fields) : PcEvent where
  eventName := opts.eventName
  body := [("source", .string "product_catalog"), ("stage", .string stage),
    ("status", .string status)] ++ extra

def number (n : Nat) : Json := .int64 n

def pageStarted (pageIdx offset read : Nat) : PcEvent :=
  pcEvent opts "fetching_pages" "page_started" [("page_num", number pageIdx),
    ("offset", number offset), ("read", number read),
    ("message", .string ("Чтение страницы " ++ toString pageIdx))]

def pageDone (pageIdx pageRead read : Nat) : PcEvent :=
  let pageMs := timings.page pageIdx
  pcEvent opts "fetching_pages" "page_done" [("page_num", number pageIdx),
    ("page_read", number pageRead), ("read", number read), ("page_ms", .int64 pageMs),
    ("message", .string ("Страница " ++ toString pageIdx ++ ": +" ++ toString pageRead ++ " (" ++
      toString pageMs ++ " мс)"))]

def pageFailed (pageIdx : Nat) (status : Int) : PcEvent :=
  pcEvent opts "fetching_pages" "page_failed" [("page_num", number pageIdx),
    ("error", .string ("HTTP " ++ toString status))]

/-- The events of the pages, and of the request that ends the loop without a page. -/
def pageEvents (ending : Ending) : List (Nat × List Json) → Nat → Nat → List PcEvent
  | [], pageIdx, read =>
      match ending with
      | .limit _ | .short _ => []
      | .empty offset => [pageStarted opts (pageIdx + 1) offset read]
      | .failed offset (.http status) =>
          [pageStarted opts (pageIdx + 1) offset read, pageFailed opts (pageIdx + 1) status]
      | .failed offset _ => [pageStarted opts (pageIdx + 1) offset read]
  | (offset, items) :: rest, pageIdx, read =>
      let pageRead := (rawRows items).length
      pageStarted opts (pageIdx + 1) offset read ::
        pageDone opts timings (pageIdx + 1) pageRead (read + pageRead) ::
          pageEvents ending rest (pageIdx + 1) (read + pageRead)

end Events

def sseError : PageError → String
  | .http status => "1С вернула HTTP " ++ toString status ++ " при чтении каталога"
  | .json what => "невалидный JSON: " ++ what
  | .notObject => "1С вернула не-объект"
  | .noValue => "нет value[]"

def pullOnecProductCatalogSse (env : Env) (cfg : Config) (server : Server) (timings : Timings)
    (opts : PullOptions) (tx : Tx CatalogDb) : Pulled PcEvent :=
  if cfg.complete = false then ⟨[], .error (.thrown incompleteConfig), tx⟩
  else
    let connecting := pcEvent opts "connecting" "started"
      [("message", .string "Проверка соединения с 1С"), ("base_url", .string cfg.onecBaseUrl)]
    match publicationUrl env cfg with
    | .error text => ⟨[connecting], .error (.thrown text), tx⟩
    | .ok base =>
        let connected := pcEvent opts "connecting" "done"
          [("message", .string "Соединение с 1С установлено"),
            ("elapsed_ms", .int64 timings.connected)]
        let fetching := pcEvent opts "fetching_pages" "started"
          [("page_size", number opts.pageSize), ("max_rows", number opts.maxRows),
            ("message", .string "Начало чтения каталога")]
        let r := pagesOf cfg server base opts.pageSize opts.maxRows
        let events := [connecting, connected, fetching] ++ pageEvents opts timings r.ending r.pages 0 0
        match r.ending with
        | .failed _ e => ⟨events, .error (.thrown (sseError e)), tx⟩
        | _ =>
            let saving := pcEvent opts "saving" "started"
              [("read", number r.rows.length), ("message", .string "Нормализация и запись в БД")]
            let records := normalizeOnecProductCatalog r.rows env.measuredAt
            match replaceProducts env opts.tenantId records tx with
            | (.error e, tx) => ⟨events ++ [saving], .error (.sql e), tx⟩
            | (.ok migrated, tx) =>
                let conflicts := countDropped [] r.rows
                let saved := pcEvent opts "saving" "done"
                  [("accepted", number records.length), ("migrated", number migrated),
                    ("conflicts", number conflicts), ("elapsed_ms", .int64 timings.saved),
                    ("message", .string ("Готово: " ++ toString records.length ++ " позиций"))]
                ⟨events ++ [saving, saved],
                  .ok {
                    accepted := records.length
                    migrated := migrated
                    conflicts := conflicts
                    measuredAt := env.measuredAt }, tx⟩

/-- A pull within a transaction of its own, followed by a commit: what is reported and stored, or
`none` where an exception or the commit rolls it back. -/
def committed {ε : Type} (pull : Tx CatalogDb → Pulled ε) (db : CatalogDb) :
    Option (PullResult × CatalogDb) :=
  let done := pull (Tx.opened db)
  match done.outcome with
  | .error _ => none
  | .ok result => done.tx.commit.map fun stored => (result, stored)

end Scand.Catalog.Pull
