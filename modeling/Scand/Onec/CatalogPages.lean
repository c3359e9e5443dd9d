/- path: Scand/Onec/CatalogPages
   layer: code model and its results
   digest: OnecCatalog::read_all_rows and read_all_pages read a served catalogue up to their limit unless
   the pages they count with are larger than the ones they ask for. -/

import Scand.Foundation.JsonValue

set_option autoImplicit false
set_option relaxedAutoImplicit false

namespace Scand.Onec.CatalogPages

open Scand.Foundation.JsonValue

abbrev Text := List Char

/-- `OnecCatalogLimits`, with a page size that is not zero. -/
structure OnecCatalogLimits where
  pageSize : Nat := 500
  maxRows : Nat := 200000
  paged : 1 ≤ pageSize := by decide

structure OnecCatalogRow where
  refKey : String
  code : String
  article : String
  name : String
  fullName : String
  isFolder : String
  deletionMark : String
  parentKey : String
  unitKey : String
  vatKey : String
  weightNum : String
  weightDen : String
  rawJson : String
  deriving DecidableEq

structure PagePath where
  resource : String
  params : List (String × String)
  top : Nat
  skip : Nat

structure PageRequest where
  root : Text
  path : PagePath
  username : String
  password : String
  timeoutMs : Int

structure Reply where
  statusCode : Int
  text : Text

abbrev Server := PageRequest → Reply

/-- The JSON library and the text of a double, as the code uses them. -/
structure Library where
  parse : Text → Except String Json
  serialize : Json → String
  doubleText : ℚ → String

structure OnecCatalog where
  root : Text
  username : String
  password : String
  timeoutMs : Int

section Code

variable (lib : Library) (server : Server) (catalog : OnecCatalog)

def buildPagePath (skip top : Nat) : PagePath where
  resource := "/Catalog_Номенклатура"
  params := [("$format", "json"),
    ("$select", "Ref_Key,Code,Артикул,Description,НаименованиеПолное,IsFolder,DeletionMark,Parent_Key," ++
      "ЕдиницаИзмерения_Key,СтавкаНДС_Key,ВесЧислитель,ВесЗнаменатель"), ("$orderby", "Code")]
  top := if top > 500 then 500 else top
  skip := skip

def pageRequest (skip top : Nat) : PageRequest where
  root := catalog.root
  path := buildPagePath skip top
  username := catalog.username
  password := catalog.password
  timeoutMs := if catalog.timeoutMs ≤ 0 then 10000 else catalog.timeoutMs

def readPage (skip top : Nat) : Except String Text :=
  let r := server (pageRequest catalog skip top)
  if r.statusCode ≠ 200 then
    .error ("1C HTTP " ++ toString r.statusCode ++ ": " ++ String.ofList (r.text.take 300))
  else .ok r.text

def getStr (obj : Fields) (key : String) : String :=
  match obj.lookup key with
  | some (.string s) => s
  | some (.bool b) => if b then "true" else "false"
  | some (.int64 i) => toString i
  | some (.uint64 n) => toString n
  | some (.double q) => lib.doubleText q
  | _ => ""

def catalogRow (obj : Fields) : OnecCatalogRow where
  refKey := getStr lib obj "Ref_Key"
  code := getStr lib obj "Code"
  article := getStr lib obj "Артикул"
  name := getStr lib obj "Description"
  fullName := getStr lib obj "НаименованиеПолное"
  isFolder := getStr lib obj "IsFolder"
  deletionMark := getStr lib obj "DeletionMark"
  parentKey := getStr lib obj "Parent_Key"
  unitKey := getStr lib obj "ЕдиницаИзмерения_Key"
  vatKey := getStr lib obj "СтавкаНДС_Key"
  weightNum := getStr lib obj "ВесЧислитель"
  weightDen := getStr lib obj "ВесЗнаменатель"
  rawJson := lib.serialize (.object obj)

def pageItems : Json → Option (List Json)
  | .object obj => (obj.lookup "value").bind Json.asArray?
  | .array items => some items
  | _ => none

def parseRows (text : Text) : Except String (List OnecCatalogRow) := do
  let data ← lib.parse text
  return (Json.objects ((pageItems data).getD [])).map (catalogRow lib)

def pagesFrom (limits : OnecCatalogLimits) (offset : Nat) : Except String (List Text) :=
  if offset < limits.maxRows then
    let thisPage := min limits.pageSize (limits.maxRows - offset)
    match readPage server catalog offset thisPage with
    | .error e => .error e
    | .ok page =>
        if page = [] then .ok []
        else (pagesFrom limits (offset + thisPage)).map (page :: ·)
  else .ok []
termination_by limits.maxRows - offset
decreasing_by
  have paged := limits.paged
  omega

def readAllPages (limits : OnecCatalogLimits) : Except String (List Text) :=
  pagesFrom server catalog limits 0

/-- The loop of `read_all_rows`; a page with fewer rows than were counted on is the last one. -/
def rowsFrom (limits : OnecCatalogLimits) (offset : Nat) : Except String (List OnecCatalogRow) :=
  if offset < limits.maxRows then
    let thisPage := min limits.pageSize (limits.maxRows - offset)
    match (readPage server catalog offset thisPage).bind (parseRows lib) with
    | .error e => .error e
    | .ok rows =>
        if rows = [] then .ok []
        else if rows.length < thisPage then .ok rows
        else (rowsFrom limits (offset + rows.length)).map (rows ++ ·)
  else .ok []
termination_by limits.maxRows - offset
decreasing_by
  rename_i rows_ne _
  have positive := List.length_pos_of_ne_nil rows_ne
  omega

def readAllRows (limits : OnecCatalogLimits) : Except String (List OnecCatalogRow) :=
  rowsFrom lib server catalog limits 0

end Code

/-- 1C serves a list of entries: every request is answered with the entries of its `$skip` and `$top`. -/
def Serves (lib : Library) (server : Server) (entries : List Fields) : Prop :=
  ∀ request, (server request).statusCode = 200 ∧ (server request).text ≠ [] ∧
    ∃ body, lib.parse (server request).text = .ok body ∧
      pageItems body = some (((entries.drop request.path.skip).take request.path.top).map .object)

/-- Both ways of reading a served list come to its first entries, up to the limit. -/
structure ReadsAll (lib : Library) (server : Server) (catalog : OnecCatalog) (limits : OnecCatalogLimits)
    (entries : List Fields) : Prop where
  rows : readAllRows lib server catalog limits = .ok ((entries.take limits.maxRows).map (catalogRow lib))
  pages : ((readAllPages server catalog limits).bind fun pages =>
      (pages.mapM (parseRows lib)).map List.flatten) =
    .ok ((entries.take limits.maxRows).map (catalogRow lib))

section Served

variable {lib : Library} {server : Server} {catalog : OnecCatalog} {limits : OnecCatalogLimits}
  {entries : List Fields}

theorem readPage_served (served : Serves lib server entries) (catalog : OnecCatalog) (skip top : Nat) :
    ∃ text, readPage server catalog skip top = .ok text ∧ text ≠ [] ∧
      parseRows lib text = .ok (((entries.drop skip).take (min top 500)).map (catalogRow lib)) := by
  obtain ⟨status, some_text, body, parsed, items⟩ := served (pageRequest catalog skip top)
  refine ⟨_, if_neg (not_not.mpr status), some_text, ?_⟩
  have clamped : (pageRequest catalog skip top).path.top = min top 500 := by
    show (if top > 500 then 500 else top) = min top 500
    split <;> omega
  rw [clamped] at items
  rw [parseRows, parsed]
  show Except.ok _ = _
  rw [items, Option.getD_some, Json.objects_map_object]
  rfl

/-- Every page that is counted with is as large as the one that is asked for. -/
def WholePages (limits : OnecCatalogLimits) (entries : List Fields) : Prop :=
  limits.pageSize ≤ 500 ∨ limits.maxRows ≤ 500 ∨ entries.length ≤ 500

theorem WholePages.take_eq (whole : WholePages limits entries) (offset : Nat) :
    (entries.drop offset).take (min (min limits.pageSize (limits.maxRows - offset)) 500) =
      (entries.drop offset).take (min limits.pageSize (limits.maxRows - offset)) := by
  rcases whole with small | small | few
  · rw [Nat.min_eq_left (by omega)]
  · rw [Nat.min_eq_left (by omega)]
  · have short : (entries.drop offset).length ≤ 500 := by
      rw [List.length_drop]
      omega
    by_cases small : min limits.pageSize (limits.maxRows - offset) ≤ 500
    · rw [Nat.min_eq_left small]
    · rw [Nat.min_eq_right (by omega), List.take_of_length_le short, List.take_of_length_le (by omega)]

theorem WholePages.readPage (whole : WholePages limits entries) (served : Serves lib server entries)
    (catalog : OnecCatalog) (offset : Nat) :
    ∃ text, readPage server catalog offset (min limits.pageSize (limits.maxRows - offset)) = .ok text ∧
      text ≠ [] ∧ parseRows lib text = .ok
        (((entries.drop offset).take (min limits.pageSize (limits.maxRows - offset))).map
          (catalogRow lib)) := by
  rw [← whole.take_eq offset]
  exact readPage_served served catalog offset _

theorem take_rest (entries : List Fields) (offset : Nat) {thisPage rest : Nat} (within : thisPage ≤ rest) :
    (entries.drop offset).take rest =
      (entries.drop offset).take thisPage ++ (entries.drop (offset + thisPage)).take (rest - thisPage) := by
  have split : rest = thisPage + (rest - thisPage) := by omega
  rw [split, List.take_add, List.drop_drop, Nat.add_sub_cancel_left]

theorem rowsFrom_served (served : Serves lib server entries) (whole : WholePages limits entries)
    (offset : Nat) : rowsFrom lib server catalog limits offset =
      .ok (((entries.drop offset).take (limits.maxRows - offset)).map (catalogRow lib)) := by
  induction left : limits.maxRows - offset using Nat.strong_induction_on generalizing offset with
  | _ n ih =>
      subst left
      rw [rowsFrom]
      by_cases more : offset < limits.maxRows
      · have paged := limits.paged
        obtain ⟨text, read, -, parsed⟩ := whole.readPage served catalog offset
        have split := take_rest entries offset (Nat.min_le_right limits.pageSize (limits.maxRows - offset))
        have within : min limits.pageSize (limits.maxRows - offset) ≤ limits.maxRows - offset :=
          Nat.min_le_right _ _
        have some_entry : 1 ≤ min limits.pageSize (limits.maxRows - offset) := by omega
        rw [if_pos more]
        generalize min limits.pageSize (limits.maxRows - offset) = thisPage at *
        have page_length : ((entries.drop offset).take thisPage).length =
            min thisPage (entries.length - offset) := by
          rw [List.length_take, List.length_drop]
        simp only [read, Except.bind, parsed]
        by_cases last : ((entries.drop offset).take thisPage).length < thisPage
        · -- the entries end on this page
          have ended : (entries.drop (offset + thisPage)).take (limits.maxRows - offset - thisPage) = [] := by
            rw [List.drop_eq_nil_of_le (by omega), List.take_nil]
          rw [split, ended, List.append_nil]
          split
          · rename_i empty
            rw [empty]
          · rw [List.length_map, if_pos last]
        · have full : ((entries.drop offset).take thisPage).length = thisPage := by omega
          have rows_ne : ((entries.drop offset).take thisPage).map (catalogRow lib) ≠ [] := by
            intro empty
            rw [List.map_eq_nil_iff.mp empty, List.length_nil] at full
            omega
          have rest := ih (limits.maxRows - (offset + thisPage)) (by omega) (offset + thisPage) rfl
          rw [if_neg rows_ne, List.length_map, if_neg last, full, rest, split, List.map_append,
            Nat.sub_sub]
          rfl
      · rw [if_neg more, Nat.sub_eq_zero_of_le (Nat.le_of_not_lt more), List.take_zero, List.map_nil]

theorem pagesFrom_served (served : Serves lib server entries) (catalog : OnecCatalog)
    (whole : WholePages limits entries) (offset : Nat) : ∃ pages rows, pagesFrom server catalog limits offset = .ok pages ∧
      pages.mapM (parseRows lib) = .ok rows ∧ rows.flatten =
        ((entries.drop offset).take (limits.maxRows - offset)).map (catalogRow lib) := by
  induction left : limits.maxRows - offset using Nat.strong_induction_on generalizing offset with
  | _ n ih =>
      subst left
      rw [pagesFrom]
      by_cases more : offset < limits.maxRows
      · have paged := limits.paged
        obtain ⟨text, read, some_text, parsed⟩ := whole.readPage served catalog offset
        have split := take_rest entries offset (Nat.min_le_right limits.pageSize (limits.maxRows - offset))
        have some_entry : 1 ≤ min limits.pageSize (limits.maxRows - offset) := by omega
        rw [if_pos more]
        generalize min limits.pageSize (limits.maxRows - offset) = thisPage at *
        obtain ⟨pages, rows, rest, all_parsed, flat⟩ :=
          ih (limits.maxRows - (offset + thisPage)) (by omega) (offset + thisPage) rfl
        refine ⟨text :: pages, ((entries.drop offset).take thisPage).map (catalogRow lib) :: rows, ?_, ?_, ?_⟩
        · simp only [read, if_neg some_text, rest]
          rfl
        · rw [List.mapM_cons, parsed, all_parsed]
          rfl
        · rw [List.flatten_cons, flat, split, List.map_append, Nat.sub_sub]
      · rw [if_neg more, Nat.sub_eq_zero_of_le (Nat.le_of_not_lt more), List.take_zero]
        exact ⟨[], [], rfl, rfl, rfl⟩

theorem readsAll_of_wholePages (served : Serves lib server entries) (whole : WholePages limits entries) :
    ReadsAll lib server catalog limits entries := by
  constructor
  · exact rowsFrom_served served whole 0
  · obtain ⟨pages, rows, read, parsed, flat⟩ := pagesFrom_served served catalog whole 0
    rw [readAllPages, read]
    show (pages.mapM (parseRows lib)).map List.flatten = _
    rw [parsed]
    exact congrArg Except.ok flat

theorem readAllRows_clamped (served : Serves lib server entries) (cut : ¬ WholePages limits entries) :
    readAllRows lib server catalog limits = .ok ((entries.take 500).map (catalogRow lib)) := by
  unfold WholePages at cut
  obtain ⟨text, read, -, parsed⟩ :=
    readPage_served served catalog 0 (min limits.pageSize limits.maxRows)
  rw [Nat.min_eq_right (by omega), List.drop_zero] at parsed
  have rows_length : ((entries.take 500).map (catalogRow lib)).length = 500 := by
    rw [List.length_map, List.length_take]
    omega
  have rows_ne : (entries.take 500).map (catalogRow lib) ≠ [] := by
    intro empty
    rw [empty] at rows_length
    cases rows_length
  rw [readAllRows, rowsFrom, if_pos (by omega), Nat.sub_zero]
  simp only [read, Except.bind, parsed]
  rw [if_neg rows_ne, if_pos (by omega)]

theorem not_readsAll_of_cut (served : Serves lib server entries) (cut : ¬ WholePages limits entries) :
    ¬ ReadsAll lib server catalog limits entries := by
  intro reads
  have rows := reads.rows
  rw [readAllRows_clamped served cut] at rows
  have lengths := congrArg List.length (Except.ok.inj rows)
  rw [List.length_map, List.length_map, List.length_take, List.length_take] at lengths
  unfold WholePages at cut
  omega

end Served

/-- A served catalogue is read up to its limit exactly where the page size, the limit or the number of
entries is at most 500, the largest page that is asked for. -/
theorem readsAll_iff (lib : Library) (server : Server) (catalog : OnecCatalog) (limits : OnecCatalogLimits)
    (entries : List Fields) (served : Serves lib server entries) :
    ReadsAll lib server catalog limits entries ↔
      limits.pageSize ≤ 500 ∨ limits.maxRows ≤ 500 ∨ entries.length ≤ 500 := by
  constructor
  · intro reads
    by_contra cut
    exact not_readsAll_of_cut served cut reads
  · exact readsAll_of_wholePages served

section Sample

def emptyObjects : Nat → Text
  | 0 => []
  | 1 => ['\x7b', '\x7d']
  | n + 2 => '\x7b' :: '\x7d' :: ',' :: emptyObjects (n + 1)

def pageHead : Text := "\x7b\"value\":[".toList

def emptyPage (n : Nat) : Text := pageHead ++ emptyObjects n ++ [']', '\x7d']

def sampleServer (total : Nat) : Server := fun request => {
  statusCode := 200, text := emptyPage (min request.path.top (total - request.path.skip)) }

/-- What the library does on the texts of `sampleServer`. -/
def sampleLibrary : Library where
  parse text :=
    if text.take pageHead.length = pageHead then
      .ok (.object [("value", .array (List.replicate (text.count '\x7d' - 1) (.object [])))])
    else .error "syntax error"
  serialize _ := "\x7b\x7d"
  doubleText _ := "0.000000"

def sampleCatalog : OnecCatalog where
  root := "https://1c.example/odata/standard.odata".toList
  username := "user"
  password := "password"
  timeoutMs := 10000

theorem count_emptyObjects (n : Nat) : (emptyObjects n).count '\x7d' = n := by
  induction n using emptyObjects.induct with
  | case1 => rfl
  | case2 => rfl
  | case3 n ih =>
      rw [emptyObjects, List.count_cons, List.count_cons, List.count_cons, ih]
      rfl

theorem count_emptyPage (n : Nat) : (emptyPage n).count '\x7d' = n + 1 := by
  have head : pageHead.count '\x7d' = 0 := rfl
  rw [emptyPage, List.count_append, List.count_append, head, count_emptyObjects, Nat.zero_add]
  rfl

theorem sample_serves (total : Nat) :
    Serves sampleLibrary (sampleServer total) (List.replicate total []) := by
  intro request
  have parsed : sampleLibrary.parse (sampleServer total request).text =
      .ok (.object [("value", .array (List.replicate (min request.path.top (total - request.path.skip))
        (.object [])))]) := by
    have head : (emptyPage (min request.path.top (total - request.path.skip))).take pageHead.length =
        pageHead := by
      rw [emptyPage, List.append_assoc, List.take_left]
    unfold sampleLibrary sampleServer
    dsimp only
    rw [if_pos head, count_emptyPage, Nat.add_sub_cancel]
  refine ⟨rfl, fun empty => ?_, _, parsed, ?_⟩
  · have head := (List.append_eq_nil_iff.mp (List.append_eq_nil_iff.mp empty).1).1
    revert head
    decide +kernel
  · rw [List.drop_replicate, List.take_replicate, List.map_replicate]
    rfl

/-- Of 501 entries with a page size of 1000 only 500 are read. -/
theorem larger_page_cut : ¬ ReadsAll sampleLibrary (sampleServer 501) sampleCatalog
    { pageSize := 1000, maxRows := 1000 } (List.replicate 501 []) :=
  not_readsAll_of_cut (sample_serves 501) (by
    unfold WholePages
    rw [List.length_replicate]
    decide)

theorem readsAll_iff_five_hundred : Serves sampleLibrary (sampleServer 501) (List.replicate 501 []) ∧
    ReadsAll sampleLibrary (sampleServer 501) sampleCatalog { pageSize := 500, maxRows := 1000 }
      (List.replicate 501 []) :=
  ⟨sample_serves 501, (readsAll_iff sampleLibrary (sampleServer 501) sampleCatalog
    { pageSize := 500, maxRows := 1000 } (List.replicate 501 []) (sample_serves 501)).mpr
      (Or.inl (by decide))⟩

end Sample

end Scand.Onec.CatalogPages
