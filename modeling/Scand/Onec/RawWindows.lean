/- path: Scand/Onec/RawWindows
   layer: code model and its results
   digest: GET /api/onec/raw: the windows of a served catalogue, from the query of the request to the
   items of the answer, and what a walk through all of them shows. -/

import Scand.Http.Router
import Scand.Onec.CatalogPages
import Mathlib.Algebra.Ring.Int.Defs

set_option autoImplicit false
set_option relaxedAutoImplicit false

namespace Scand.Onec.RawWindows

open Scand.Foundation.JsonValue
open Scand.Http.Router
open Scand.Onec.CatalogPages hiding Text Reply

inductive CountVariant
  | v4 | v3 | count

abbrev CountServer := CountVariant → CatalogPages.Reply

def countOfField : Json → Option Nat
  | .int64 i => some (i % 2 ^ 64).toNat
  | .uint64 n => some n
  | .string s => stoul s
  | _ => none

section Code

variable (lib : Library) (server : Server) (counts : CountServer) (catalog : OnecCatalog)

def countOfReply (variant : CountVariant) (r : CatalogPages.Reply) : Option Nat :=
  if r.statusCode ≠ 200 then none
  else match variant with
    | .count => stoul (String.ofList r.text)
    | .v4 | .v3 =>
        match (lib.parse r.text).toOption.bind Json.asObject? with
        | none => none
        | some obj => ["@odata.count", "odata.count", "count"].findSome? fun key =>
            (obj.lookup key).bind countOfField

/-- `read_total_count`: the first of the three requests with a count. -/
def readTotalCount : Option Nat :=
  [CountVariant.v4, .v3, .count].findSome? fun variant => countOfReply lib variant (counts variant)

/-- `getNum`: a missing, empty or unreadable parameter has its default. -/
def getNum (params : Params) (key : String) (default : Nat) : Nat :=
  match params key.toList with
  | none => default
  | some text => if text = [] then default else (stoul (String.ofList text)).getD default

def getBool (params : Params) (key : String) (default : Bool) : Bool :=
  match params key.toList with
  | none => default
  | some text => text = "1".toList || text = "true".toList

/-- The size of a window: 100 for zero, and at most 1000. -/
def windowTop (params : Params) : Nat :=
  let top := getNum params "top" 100
  let top := if top = 0 then 100 else top
  if top > 1000 then 1000 else top

theorem one_le_windowTop (params : Params) : 1 ≤ windowTop params := by
  unfold windowTop
  dsimp only
  split <;> split <;> omega

/-- The limits of one window; the sum of two sizes is one of 64 bits. -/
def windowLimits (params : Params) : OnecCatalogLimits where
  pageSize := windowTop params
  maxRows := (windowTop params + getNum params "skip" 0) % 2 ^ 64
  paged := one_le_windowTop params

def isHidden (row : OnecCatalogRow) : Bool := row.isFolder = "true" || row.deletionMark = "true"

def itemJson (row : OnecCatalogRow) : Json :=
  .object [("ref_key", .string row.refKey), ("code", .string row.code),
    ("article", .string row.article), ("name", .string row.name),
    ("full_name", .string row.fullName), ("is_folder", .string row.isFolder),
    ("deletion_mark", .string row.deletionMark)]

/-- The loop over the rows, with the number of rows that it has passed and the items so far. -/
def pickItems (top skip : Nat) (onlyProducts : Bool) :
    Nat → List Json → List OnecCatalogRow → List Json
  | _, items, [] => items
  | i, items, row :: rows =>
      if i < skip then pickItems top skip onlyProducts (i + 1) items rows
      else if items.length ≥ top then items
      else if onlyProducts && isHidden row then pickItems top skip onlyProducts (i + 1) items rows
      else pickItems top skip onlyProducts (i + 1) (items ++ [itemJson row]) rows

def rawHandler (ctx : RequestContext) : Response :=
  let params := ctx.queryParams
  let top := windowTop params
  let skip := getNum params "skip" 0
  let onlyProducts := getBool params "only_products" true
  let total := (readTotalCount lib counts).getD 0
  match readAllRows lib server catalog (windowLimits params) with
  | .ok rows =>
      let items := pickItems top skip onlyProducts 0 [] rows
      { status := 200
        body := .object [("count", .uint64 items.length), ("total", .uint64 total),
          ("top", .uint64 top), ("skip", .uint64 skip), ("items", .array items)] }
  | .error e => { status := 500, body := .object [("error", .string e)] }

end Code

def Response.items (r : Response) : List Json :=
  ((r.body.asObject?.bind fun obj => obj.lookup "items").bind Json.asArray?).getD []

section Query

def queryText (pairs : List (Text × Text)) : Text :=
  ['&'].intercalate (pairs.map fun pair => pair.1 ++ '=' :: pair.2)

/-- A name and a value that come through a query as they are. -/
def Plain (pair : Text × Text) : Prop :=
  '=' ∉ pair.1 ∧ '&' ∉ pair.1 ∧ '&' ∉ pair.2

theorem parsePair_plain {pair : Text × Text} (plain : Plain pair) (out : Params) :
    parsePair out (pair.1 ++ '=' :: pair.2) = out.assign pair.1 pair.2 := by
  obtain ⟨no_equals, -, -⟩ := plain
  have name : ∀ c ∈ pair.1, decide (c ≠ '=') = true :=
    fun c mem => decide_eq_true fun same => no_equals (same ▸ mem)
  have some_text : pair.1 ++ '=' :: pair.2 ≠ [] := by simp
  rw [parsePair, if_neg some_text, List.takeWhile_append_of_pos name,
    List.takeWhile_cons_of_neg (by decide), List.append_nil, List.dropWhile_append_of_pos name,
    List.dropWhile_cons_of_neg (by decide)]
  rfl

theorem parseQuery_queryText {path : Text} (no_query : '?' ∉ path) {pairs : List (Text × Text)}
    (some_pair : pairs ≠ []) (plain : ∀ pair ∈ pairs, Plain pair) :
    parseQuery (path ++ '?' :: queryText pairs) =
      pairs.foldl (fun out pair => out.assign pair.1 pair.2) .empty := by
  have before : ∀ c ∈ path, decide (c ≠ '?') = true :=
    fun c mem => decide_eq_true fun same => no_query (same ▸ mem)
  have split : (queryText pairs).splitOn '&' = pairs.map fun pair => pair.1 ++ '=' :: pair.2 := by
    refine List.splitOn_intercalate _ (fun text mem => ?_) (by simpa using some_pair)
    obtain ⟨pair, given, rfl⟩ := List.mem_map.mp mem
    obtain ⟨-, name, value⟩ := plain pair given
    simp [name, value]
  rw [parseQuery, List.dropWhile_append_of_pos before, List.dropWhile_cons_of_neg (by decide),
    List.drop_one, List.tail_cons, split]
  generalize Params.empty = out
  clear some_pair split
  induction pairs generalizing out with
  | nil => rfl
  | cons pair pairs ih =>
      rw [List.map_cons, List.foldl_cons, List.foldl_cons,
        parsePair_plain (plain pair List.mem_cons_self)]
      exact ih (fun pair mem => plain pair (List.mem_cons_of_mem _ mem)) _

theorem plain_number {name : Text} (no_equals : '=' ∉ name) (no_and : '&' ∉ name) (n : Nat) :
    Plain (name, (toString n).toList) := by
  refine ⟨no_equals, no_and, fun mem => ?_⟩
  obtain ⟨c, rest, list, -, -, -, all, -⟩ := toString_digits n
  dsimp only at mem
  rw [list] at mem
  have digit := List.takeWhile_eq_self_iff.mp all '&' mem
  exact absurd digit (by decide)

theorem getNum_number {params : Params} {key : String} {n : Nat} (small : n < 2 ^ 64)
    (given : params key.toList = some (toString n).toList) (default : Nat) :
    getNum params key default = n := by
  obtain ⟨c, rest, list, -⟩ := toString_digits n
  have some_text : (toString n).toList ≠ [] := by
    rw [list]
    exact List.cons_ne_nil _ _
  rw [getNum, given]
  dsimp only
  rw [if_neg some_text, String.ofList_toList, stoul_toString small]
  rfl

end Query

section Items

variable {top skip : Nat} {onlyProducts : Bool}

def shown (onlyProducts : Bool) (row : OnecCatalogRow) : Bool := !(onlyProducts && isHidden row)

theorem pickItems_behind (rows : List OnecCatalogRow) {i : Nat} (behind : skip ≤ i) (items : List Json)
    (room : items.length ≤ top) : pickItems top skip onlyProducts i items rows =
      items ++ ((rows.filter (shown onlyProducts)).take (top - items.length)).map itemJson := by
  induction rows generalizing i items with
  | nil => simp [pickItems]
  | cons row rows ih =>
      rw [pickItems, if_neg (by omega)]
      by_cases full : items.length ≥ top
      · rw [if_pos full, Nat.sub_eq_zero_of_le full]
        simp
      · rw [if_neg full]
        by_cases hidden : (onlyProducts && isHidden row) = true
        · have dropped : ¬ shown onlyProducts row = true := by simp [shown, hidden]
          rw [if_pos hidden, ih (by omega) items room, List.filter_cons_of_neg dropped]
        · have kept : shown onlyProducts row = true := by
            rw [Bool.not_eq_true] at hidden
            rw [shown, hidden]
            rfl
          have rest : top - items.length = top - (items ++ [itemJson row]).length + 1 := by
            rw [List.length_append, List.length_singleton]
            omega
          rw [if_neg hidden, ih (by omega) _ (by rw [List.length_append, List.length_singleton]; omega),
            List.filter_cons_of_pos kept, rest, List.take_succ_cons, List.map_cons,
            List.append_assoc, List.singleton_append]

theorem pickItems_skipped (rows : List OnecCatalogRow) {i : Nat} (before : i ≤ skip) :
    pickItems top skip onlyProducts i [] rows =
      (((rows.drop (skip - i)).filter (shown onlyProducts)).take top).map itemJson := by
  induction rows generalizing i with
  | nil => simp [pickItems]
  | cons row rows ih =>
      by_cases skipped : i < skip
      · have rest : skip - i = skip - (i + 1) + 1 := by omega
        rw [pickItems, if_pos skipped, ih skipped, rest, List.drop_succ_cons]
      · have none_left : skip - i = 0 := by omega
        rw [pickItems_behind _ (Nat.le_of_not_lt skipped) [] (Nat.zero_le _), none_left]
        rfl

theorem pickItems_eq (rows : List OnecCatalogRow) (within : rows.length ≤ top + skip) :
    pickItems top skip onlyProducts 0 [] rows =
      ((rows.drop skip).filter (shown onlyProducts)).map itemJson := by
  have short : ((rows.drop skip).filter (shown onlyProducts)).length ≤ top := by
    have filtered := List.length_filter_le (shown onlyProducts) (rows.drop skip)
    rw [List.length_drop] at filtered
    omega
  rw [pickItems_skipped rows (Nat.zero_le _), Nat.sub_zero, List.take_of_length_le short]

end Items

section Windows

variable {lib : Library} {server : Server} {counts : CountServer} {catalog : OnecCatalog}
  {entries : List Fields}

def windowTarget (top skip : Nat) : List Char :=
  "/api/onec/raw".toList ++ '?' :: queryText
    [("top".toList, (toString top).toList), ("skip".toList, (toString skip).toList)]

def windowAnswer (lib : Library) (server : Server) (counts : CountServer) (catalog : OnecCatalog)
    (top skip : Nat) : Response :=
  rawHandler lib server counts catalog {
    req := {}, body := .null, pathParams := .empty, queryParams := parseQuery (windowTarget top skip) }

def products (lib : Library) (entries : List Fields) : List Json :=
  ((entries.map (catalogRow lib)).filter (shown true)).map itemJson

/-- As many entries as the windows of this size can come to. -/
def withinReach (top : Nat) (entries : List Fields) : Nat :=
  if top ≤ 500 ∨ entries.length ≤ 500 then entries.length else 500

theorem window_rows {limits : OnecCatalogLimits} (served : Serves lib server entries) {top skip : Nat}
    (sizes : limits.pageSize = top ∧ limits.maxRows = top + skip) :
    ∃ rows, readAllRows lib server catalog limits = .ok rows ∧ rows.length ≤ top + skip ∧
      rows.drop skip =
        (((entries.take (withinReach top entries)).drop skip).take top).map (catalogRow lib) := by
  obtain ⟨size, most⟩ := sizes
  by_cases whole : WholePages limits entries
  · refine ⟨_, (readsAll_of_wholePages served whole).rows, ?_, ?_⟩
    · rw [List.length_map, List.length_take, most]
      exact Nat.min_le_left _ _
    · have all : entries.take (withinReach top entries) = entries := by
        have within : top ≤ 500 ∨ entries.length ≤ 500 := by
          unfold WholePages at whole
          omega
        rw [withinReach, if_pos within, List.take_length]
      rw [most, ← List.map_drop, List.drop_take, Nat.add_sub_cancel, all]
  · have cut : ¬ (top ≤ 500 ∨ entries.length ≤ 500) := by
      unfold WholePages at whole
      omega
    refine ⟨_, readAllRows_clamped served whole, ?_, ?_⟩
    · rw [List.length_map, List.length_take]
      omega
    · have short : ((entries.take 500).drop skip).length ≤ top := by
        rw [List.length_drop, List.length_take]
        omega
      rw [withinReach, if_neg cut, List.take_of_length_le short, List.map_drop]

theorem take_windows {α : Type} (xs : List α) (top windows : Nat) :
    xs.take (windows * top) =
      (List.range windows).flatMap fun j => (xs.drop (j * top)).take top := by
  induction windows with
  | zero => simp
  | succ windows ih =>
      rw [Nat.succ_mul, List.take_add, ih, List.range_succ, List.flatMap_append]
      simp

theorem parseQuery_windowTarget (top skip : Nat) :
    parseQuery (windowTarget top skip) =
      (Params.empty.assign "top".toList (toString top).toList).assign "skip".toList
        (toString skip).toList := by
  have path : '?' ∉ "/api/onec/raw".toList := by decide
  have some_pair : [("top".toList, (toString top).toList), ("skip".toList, (toString skip).toList)] ≠ [] :=
    List.cons_ne_nil _ _
  have plain : ∀ pair ∈ [("top".toList, (toString top).toList), ("skip".toList, (toString skip).toList)],
      Plain pair := by
    intro pair mem
    simp only [List.mem_cons, List.not_mem_nil, or_false] at mem
    rcases mem with rfl | rfl
    · exact plain_number (by decide) (by decide) top
    · exact plain_number (by decide) (by decide) skip
  have read := parseQuery_queryText path some_pair plain
  unfold windowTarget
  rw [read]
  rfl

theorem windowTop_windowTarget {top : Nat} (positive : 1 ≤ top) (bounded : top ≤ 1000) (skip : Nat) :
    windowTop (parseQuery (windowTarget top skip)) = top := by
  have given : parseQuery (windowTarget top skip) "top".toList = some (toString top).toList := by
    rw [parseQuery_windowTarget]
    rfl
  unfold windowTop
  rw [getNum_number (by omega) given]
  dsimp only
  rw [if_neg (show ¬ top = 0 by omega), if_neg (by omega)]

theorem skip_windowTarget {skip : Nat} (small : skip < 2 ^ 64) (top : Nat) :
    getNum (parseQuery (windowTarget top skip)) "skip" 0 = skip := by
  refine getNum_number small ?_ 0
  rw [parseQuery_windowTarget]
  rfl

theorem windowAnswer_items (served : Serves lib server entries) {top skip : Nat} (positive : 1 ≤ top)
    (bounded : top ≤ 1000) (fits : top + skip < 2 ^ 64) :
    (windowAnswer lib server counts catalog top skip).status = 200 ∧
      Response.items (windowAnswer lib server counts catalog top skip) =
        products lib (((entries.take (withinReach top entries)).drop skip).take top) := by
  have only : getBool (parseQuery (windowTarget top skip)) "only_products" true = true := by
    rw [getBool, parseQuery_windowTarget]
    rfl
  have skip_read : getNum (parseQuery (windowTarget top skip)) "skip" 0 = skip :=
    skip_windowTarget (by omega) top
  have top_read : windowTop (parseQuery (windowTarget top skip)) = top :=
    windowTop_windowTarget positive bounded skip
  have limits : (windowLimits (parseQuery (windowTarget top skip))).pageSize = top ∧
      (windowLimits (parseQuery (windowTarget top skip))).maxRows = top + skip := by
    simp only [windowLimits]
    rw [top_read, skip_read, Nat.mod_eq_of_lt fits]
    exact ⟨rfl, rfl⟩
  obtain ⟨rows, read, few, shows⟩ := window_rows served limits
  have picked : pickItems top skip true 0 [] rows =
      ((rows.drop skip).filter (shown true)).map itemJson := pickItems_eq rows few
  rw [shows] at picked
  rw [windowAnswer, rawHandler]
  dsimp only
  rw [top_read, skip_read, only, read]
  exact ⟨rfl, picked⟩

/-- A client that walks through the catalogue window by window is shown every product among the entries
within reach, each once and in their order: all of them, unless the windows and the catalogue are
larger than 500 entries; then none behind the 500th. -/
theorem windows_walk (lib : Library) (server : Server) (counts : CountServer) (catalog : OnecCatalog)
    (entries : List Fields) (served : Serves lib server entries) (top windows : Nat)
    (positive : 1 ≤ top) (bounded : top ≤ 1000) (fits : windows * top < 2 ^ 64)
    (enough : entries.length ≤ windows * top) :
    (List.range windows).flatMap (fun j =>
        Response.items (windowAnswer lib server counts catalog top (j * top))) =
      products lib (entries.take (withinReach top entries)) := by
  have window : ∀ j ∈ List.range windows,
      Response.items (windowAnswer lib server counts catalog top (j * top)) =
        products lib (((entries.take (withinReach top entries)).drop (j * top)).take top) := by
    intro j mem
    have before : j < windows := List.mem_range.mp mem
    have ends : j * top + top ≤ windows * top := by
      rw [← Nat.succ_mul]
      exact Nat.mul_le_mul_right top before
    have small : top + j * top < 2 ^ 64 := by omega
    exact (windowAnswer_items served positive bounded small).2
  have whole : (entries.take (withinReach top entries)).length ≤ windows * top := by
    rw [List.length_take]
    omega
  unfold products at window ⊢
  rw [List.flatMap_congr window, ← List.map_flatMap, ← List.filter_flatMap, ← List.map_flatMap,
    ← take_windows, List.take_of_length_le whole]

end Windows

section Sample

def noCounts : CountServer := fun _ => { statusCode := 404, text := [] }

theorem windows_walk_cut :
    (List.range 2).flatMap (fun j => Response.items
        (windowAnswer sampleLibrary (sampleServer 501) noCounts sampleCatalog 501 (j * 501))) =
      List.replicate 500 (itemJson (catalogRow sampleLibrary [])) := by
  have walk := windows_walk sampleLibrary (sampleServer 501) noCounts sampleCatalog
    (List.replicate 501 []) (sample_serves 501) 501 2 (by decide) (by decide) (by decide)
    (by rw [List.length_replicate]; decide)
  have limit : withinReach 501 (List.replicate 501 []) = 500 := by
    rw [withinReach, List.length_replicate]
    rfl
  rw [walk, limit, products, List.take_replicate, List.map_replicate, List.filter_replicate_of_pos rfl,
    List.map_replicate]
  rfl

end Sample

end Scand.Onec.RawWindows
