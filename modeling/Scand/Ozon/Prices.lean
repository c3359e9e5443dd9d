/- path: Scand/Ozon/Prices
   layer: results
   digest: When the write of a page leaves every product with the price of its own price item or with
   the price that was stored before. -/

import Scand.Ozon.ProductRows

set_option autoImplicit false
set_option relaxedAutoImplicit false

namespace Scand.Ozon.Prices

open Scand.Foundation.JsonValue
open Scand.Foundation.KeyedTable
open Scand.Ozon.Client
open Scand.Ozon.ProductRows
open Scand.Ozon.Service

abbrev Products := Table OzonProduct OzonProduct.id

def offerId (o : Fields) : String := strField o "offer_id"

def priceFields (o : Fields) : Fields := ((o.lookup "price").bind Json.asObject?).getD []

def statedPrice (o : Fields) : Option Number :=
  ((priceFields o).lookup "price").bind Json.asString? |>.bind stod

/-- The stock that an item states: the sum over its entries, as long as it may be. -/
def statedStock (o : Fields) : Int :=
  ((stockEntries o).map fun s => (intField s "present").getD 0).sum

/-- The price, as its column holds it, the currency and the stock of an item. -/
def itemPart (o : Fields) : Number × String × Int :=
  (roundNumber 2 ((statedPrice o).getD (.finite 0)), strField (priceFields o) "currency_code",
    statedStock o)

/-- What is left of them when the stock is counted in 32 bits. -/
def countedPart (o : Fields) : Number × String × Int :=
  ((itemPart o).1, (itemPart o).2.1, toInt32 (itemPart o).2.2)

def sellingPart (p : OzonProduct) : Number × String × Int := (p.price, p.currency, p.inStock)

/-- The items of the prices answer: without offer ids nothing is requested, and a failed request has
none. -/
def priceItems (details : List OzonProduct) (r : HttpReply) : List Fields :=
  if (skusOf details).isEmpty then [] else (answeredItems r).getD []

/-- The item that counts for an offer id: of several ones the last. -/
def lastItem (items : List Fields) (sku : String) : Option Fields :=
  items.reverse.find? fun o => offerId o = sku

def pageDetails (page : OzonPage) (info : HttpReply) : List OzonProduct :=
  fetchInfoBatch (page.items.map OzonProduct.id) info

/-- The products table after the page: the products that the info answer names are joined with the
prices and written in one batch. -/
def storePage (s : Shared) (dbOk : Bool) (details : List OzonProduct) (prices : HttpReply) :
    Products :=
  (upsertProducts s dbOk
    (withPrices details (fetchPricesStocksBatch (skusOf details) prices))).products

/-- The products of a page: those of the info answer, and the listed ones that it leaves out. -/
def pageProducts (page : OzonPage) (details : List OzonProduct) : List OzonProduct :=
  details ++ page.items.filter fun p => p.id ∉ details.map OzonProduct.id

def ItemOf (p : OzonProduct) (o : Fields) : Prop := p.sku ≠ "" ∧ offerId o = p.sku

/-- The product has the price, currency and stock of one of its price items if there is one, and
otherwise those that were stored before. -/
def PricedRight (items : List Fields) (old new : Products) (p : OzonProduct) : Prop :=
  ((∃ o ∈ items, ItemOf p o) → ∃ row ∈ new.rows, row.id = p.id ∧
      ∃ o ∈ items, ItemOf p o ∧ sellingPart row = itemPart o) ∧
    ((¬ ∃ o ∈ items, ItemOf p o) → ∀ row ∈ old.rows, row.id = p.id →
      ∃ row' ∈ new.rows, row'.id = p.id ∧ sellingPart row' = sellingPart row)

/-- A stored price becomes zero only where a price item of the product states zero. -/
def NotZeroed (items : List Fields) (old new : Products) (p : OzonProduct) : Prop :=
  ∀ row ∈ old.rows, row.id = p.id → row.price ≠ .finite 0 →
    ∀ row' ∈ new.rows, row'.id = p.id → row'.price = .finite 0 →
      ∃ o ∈ items, ItemOf p o ∧ ∃ x, statedPrice o = some x ∧ roundNumber 2 x = .finite 0

/-- What is written for a product without a price item: nothing, or for a product without an offer id
the values of the last item that has none either. -/
def unpricedPart (items : List Fields) (sku : String) : Number × String × Int :=
  match lastItem items sku with
  | some o => countedPart o
  | none => (.finite 0, "", 0)

/-- For a product that is written: the last of its price items has a stock that 32 bits hold (or what
they hold of it is what another item states), and it states a price, where a price other than zero is
stored; without any item the stored row already holds what is written. -/
def Covered (items : List Fields) (old : Products) (p : OzonProduct) : Prop :=
  ((∃ o ∈ items, ItemOf p o) → ∃ last, lastItem items p.sku = some last ∧
      (∃ o ∈ items, ItemOf p o ∧ itemPart o = countedPart last) ∧
      ∀ row ∈ old.rows, row.id = p.id → row.price ≠ .finite 0 →
        (statedPrice last).isSome = true ∨
          ∃ o ∈ items, ItemOf p o ∧ ∃ x, statedPrice o = some x ∧ roundNumber 2 x = .finite 0) ∧
    ((¬ ∃ o ∈ items, ItemOf p o) → ∀ row ∈ old.rows, row.id = p.id →
      sellingPart row = unpricedPart items p.sku)

/-- For a product that is not written: its stored row already holds the values of a price item. -/
def AlreadyPriced (items : List Fields) (old : Products) (p : OzonProduct) : Prop :=
  (∃ o ∈ items, ItemOf p o) → ∃ row ∈ old.rows, row.id = p.id ∧
    ∃ o ∈ items, ItemOf p o ∧ sellingPart row = itemPart o

section Items

variable {items : List Fields}

theorem fetchPricesStocksBatch_eq (details : List OzonProduct) (r : HttpReply) :
    fetchPricesStocksBatch (skusOf details) r = (priceItems details r).map priceProduct := by
  unfold fetchPricesStocksBatch priceItems
  split
  · rfl
  · cases answeredItems r <;> rfl

theorem toInt32_add (a b : Int) : toInt32 (toInt32 a + toInt32 b) = toInt32 (a + b) := by
  rw [toInt32, toInt32, toInt32, toInt32, Int.bmod_add_bmod, Int.add_bmod_bmod]

theorem foldl_addPresent (entries : List Fields) (total : Int) :
    entries.foldl addPresent (toInt32 total) =
      toInt32 (total + (entries.map fun s => (intField s "present").getD 0).sum) := by
  induction entries generalizing total with
  | nil => rw [List.map_nil, List.sum_nil, Int.add_zero, List.foldl_nil]
  | cons s entries ih =>
      have step : addPresent (toInt32 total) s =
          toInt32 (total + (intField s "present").getD 0) := by
        unfold addPresent
        cases intField s "present" with
        | none => rw [Option.getD_none, Int.add_zero]
        | some n => exact toInt32_add total n
      rw [List.foldl_cons, List.map_cons, List.sum_cons, ← Int.add_assoc, step, ih]

theorem presentStock_eq (o : Fields) : presentStock o = toInt32 (statedStock o) := by
  have counted := foldl_addPresent (stockEntries o) 0
  rw [Int.zero_add] at counted
  exact counted

theorem sellingPart_priceProduct (o : Fields) :
    sellingPart (storedRow (priceProduct o)) = countedPart o := by
  have stock : (storedRow (priceProduct o)).inStock = toInt32 (statedStock o) := presentStock_eq o
  rw [sellingPart, stock]
  rfl

theorem priceOf_map (sku : String) :
    priceOf (items.map priceProduct) sku = (lastItem items sku).map priceProduct := by
  rw [priceOf, lastItem, ← List.map_reverse, List.find?_map]
  rfl

theorem lastItem_some {sku : String} {o : Fields} (found : lastItem items sku = some o) :
    o ∈ items ∧ offerId o = sku := by
  have holds := List.find?_some found
  simp only [decide_eq_true_eq] at holds
  exact ⟨List.mem_reverse.mp (List.mem_of_find?_eq_some found), holds⟩

theorem exists_lastItem {sku : String} {o : Fields} (mem : o ∈ items) (same : offerId o = sku) :
    ∃ last, lastItem items sku = some last := by
  rw [← Option.isSome_iff_exists, lastItem, List.find?_isSome]
  exact ⟨o, List.mem_reverse.mpr mem, decide_eq_true same⟩

end Items

section Written

variable {items : List Fields} {p row : OzonProduct}

def writtenRow (items : List Fields) (p : OzonProduct) : OzonProduct :=
  storedRow (match lastItem items p.sku with
    | some o => { p with
        price := (priceProduct o).price
        currency := (priceProduct o).currency
        inStock := (priceProduct o).inStock }
    | none => p)

theorem writtenRow_id : (writtenRow items p).id = p.id := by
  unfold writtenRow
  split <;> rfl

theorem map_storedRow_withPrices (items : List Fields) (details : List OzonProduct) :
    (withPrices details (items.map priceProduct)).map storedRow =
      details.map (writtenRow items) := by
  rw [withPrices, List.map_map]
  apply List.map_congr_left
  intro p _
  simp only [Function.comp_apply, writtenRow, priceOf_map]
  cases lastItem items p.sku <;> rfl

theorem sellingPart_writtenRow {o : Fields} (found : lastItem items p.sku = some o) :
    sellingPart (writtenRow items p) = countedPart o := by
  rw [← sellingPart_priceProduct]
  simp only [writtenRow, found]
  rfl

theorem roundNumber_zero : roundNumber 2 (.finite 0) = .finite 0 := by
  norm_num [roundNumber, roundTo]

theorem sellingPart_info {ids : List String} {r : HttpReply} (mem : p ∈ fetchInfoBatch ids r) :
    sellingPart p = (.finite 0, "", 0) := by
  unfold fetchInfoBatch at mem
  split at mem
  · cases mem
  · split at mem
    · cases mem
    · obtain ⟨o, -, given⟩ := List.mem_filterMap.mp mem
      obtain ⟨id, -, rfl⟩ := Option.map_eq_some_iff.mp given
      rfl

theorem sellingPart_unpriced (blank : sellingPart p = (.finite 0, "", 0)) :
    sellingPart (writtenRow items p) = unpricedPart items p.sku := by
  unfold unpricedPart
  cases found : lastItem items p.sku with
  | some o => exact sellingPart_writtenRow found
  | none =>
      obtain ⟨price, rest⟩ := Prod.mk.inj blank
      simp only [writtenRow, found, sellingPart, storedRow, price, roundNumber_zero]
      rw [rest]

theorem eq_of_written {new : Products} (stored : writtenRow items p ∈ new.rows)
    (mem : row ∈ new.rows) (same : row.id = p.id) : row = writtenRow items p := by
  have both : row ∈ new.select (writtenRow items p).id := by
    rw [Table.select, List.mem_filter, decide_eq_true_eq]
    exact ⟨mem, same.trans writtenRow_id.symm⟩
  rw [Table.select_of_mem stored] at both
  exact List.mem_singleton.mp both

section Named

variable {old new : Products} {last : Fields}

theorem pricedRight_iff (stored : writtenRow items p ∈ new.rows)
    (named : ∃ o ∈ items, ItemOf p o) (found : lastItem items p.sku = some last) :
    PricedRight items old new p ↔ ∃ o ∈ items, ItemOf p o ∧ itemPart o = countedPart last := by
  have priced := sellingPart_writtenRow found
  constructor
  · intro right
    obtain ⟨row, row_mem, row_id, o, o_mem, item, values⟩ := right.1 named
    rw [eq_of_written stored row_mem row_id, priced] at values
    exact ⟨o, o_mem, item, values.symm⟩
  · intro given
    obtain ⟨o, o_mem, item, values⟩ := given
    exact ⟨fun _ => ⟨_, stored, writtenRow_id, o, o_mem, item, priced.trans values.symm⟩,
      fun none_named => absurd named none_named⟩

theorem notZeroed_iff (stored : writtenRow items p ∈ new.rows) (own : p.sku ≠ "")
    (found : lastItem items p.sku = some last) :
    NotZeroed items old new p ↔
      ∀ row ∈ old.rows, row.id = p.id → row.price ≠ .finite 0 →
        (statedPrice last).isSome = true ∨
          ∃ o ∈ items, ItemOf p o ∧ ∃ x, statedPrice o = some x ∧ roundNumber 2 x = .finite 0 := by
  have price : (writtenRow items p).price = roundNumber 2 ((statedPrice last).getD (.finite 0)) :=
    congrArg Prod.fst (sellingPart_writtenRow found)
  obtain ⟨last_mem, last_same⟩ := lastItem_some found
  constructor
  · intro kept row row_mem row_id nonzero
    by_cases states : (statedPrice last).isSome = true
    · exact Or.inl states
    · refine Or.inr (kept row row_mem row_id nonzero _ stored writtenRow_id ?_)
      rw [price, Option.not_isSome_iff_eq_none.mp states, Option.getD_none, roundNumber_zero]
  · intro covered row row_mem row_id nonzero row' mem' id' zero
    rcases covered row row_mem row_id nonzero with states | item
    · obtain ⟨x, stated⟩ := Option.isSome_iff_exists.mp states
      refine ⟨last, last_mem, ⟨own, last_same⟩, x, stated, ?_⟩
      rw [eq_of_written stored mem' id', price, stated] at zero
      exact zero
    · exact item

end Named

theorem unnamed_right_iff {old new : Products} (blank : sellingPart p = (.finite 0, "", 0))
    (stored : writtenRow items p ∈ new.rows) (unnamed : ¬ ∃ o ∈ items, ItemOf p o) :
    PricedRight items old new p ∧ NotZeroed items old new p ↔
      ∀ row ∈ old.rows, row.id = p.id → sellingPart row = unpricedPart items p.sku := by
  have part : sellingPart (writtenRow items p) = unpricedPart items p.sku :=
    sellingPart_unpriced blank
  constructor
  · intro right row row_mem row_id
    obtain ⟨row', mem', id', same⟩ := right.1.2 unnamed row row_mem row_id
    rw [← same, eq_of_written stored mem' id', part]
  · intro covered
    refine ⟨⟨fun named => absurd named unnamed, ?_⟩, ?_⟩
    · intro _ row row_mem row_id
      exact ⟨_, stored, writtenRow_id, part.trans (covered row row_mem row_id).symm⟩
    · intro row row_mem row_id nonzero row' mem' id' zero
      have same_price : (writtenRow items p).price = row.price :=
        congrArg Prod.fst (part.trans (covered row row_mem row_id).symm)
      rw [eq_of_written stored mem' id', same_price] at zero
      exact absurd zero nonzero

theorem written_right_iff {old new : Products} (blank : sellingPart p = (.finite 0, "", 0))
    (stored : writtenRow items p ∈ new.rows) :
    PricedRight items old new p ∧ NotZeroed items old new p ↔ Covered items old p := by
  by_cases named : ∃ o ∈ items, ItemOf p o
  · obtain ⟨o, mem, own, same⟩ := id named
    obtain ⟨last, found⟩ := exists_lastItem mem same
    rw [pricedRight_iff stored named found, notZeroed_iff stored own found]
    simp only [Covered, named, not_true_eq_false, false_implies, and_true, forall_const, found,
      Option.some.injEq, exists_eq_left']
  · rw [unnamed_right_iff blank stored named]
    simp only [Covered, named, false_implies, true_and, not_false_eq_true, forall_const]

theorem unwritten_right_iff {old new : Products}
    (kept : ∀ row : OzonProduct, row.id = p.id → (row ∈ new.rows ↔ row ∈ old.rows)) :
    PricedRight items old new p ∧ NotZeroed items old new p ↔ AlreadyPriced items old p := by
  have zero_kept : NotZeroed items old new p := by
    intro row row_mem row_id nonzero row' mem' id' zero
    have both : row' ∈ old.select row.id := by
      rw [Table.select, List.mem_filter, decide_eq_true_eq]
      exact ⟨(kept row' id').mp mem', id'.trans row_id.symm⟩
    rw [Table.select_of_mem row_mem] at both
    exact absurd (List.mem_singleton.mp both ▸ zero) nonzero
  simp only [zero_kept, and_true, PricedRight, AlreadyPriced]
  constructor
  · intro right named
    obtain ⟨row, mem, same, item⟩ := right.1 named
    exact ⟨row, (kept row same).mp mem, same, item⟩
  · intro already
    refine ⟨?_, ?_⟩
    · intro named
      obtain ⟨row, mem, same, item⟩ := already named
      exact ⟨row, (kept row same).mpr mem, same, item⟩
    · intro _ row mem same
      exact ⟨row, (kept row same).mpr mem, same, rfl⟩

end Written

section Batches

def FitsColumn : Number → Prop
  | .finite q => |roundTo 2 q| < 10 ^ (12 - 2)
  | .infinite _ => False
  | .nan => True

/-- The batch of a page is written: the database works, the ids are distinct, and the price of every
item that counts fits its column. -/
def Accepted (dbOk : Bool) (items : List Fields) (details : List OzonProduct) : Prop :=
  details = [] ∨ (dbOk = true ∧ (details.map OzonProduct.id).Nodup ∧
    ∀ p ∈ details, ∀ o, lastItem items p.sku = some o → FitsColumn (priceProduct o).price)

/-- A product is written with its page, unless the info answer leaves it out. -/
def Written (dbOk : Bool) (items : List Fields) (details : List OzonProduct) (p : OzonProduct) :
    Prop :=
  Accepted dbOk items details ∧ p ∈ details

theorem fitsColumn_iff {x : Number} : (∃ y, numericDouble 12 2 x = .ok y) ↔ FitsColumn x := by
  cases x with
  | finite q =>
      simp only [numericDouble, numeric, FitsColumn]
      split
      · rename_i fits
        exact iff_of_true ⟨_, rfl⟩ fits
      · rename_i wide
        refine iff_of_false (fun given => ?_) wide
        obtain ⟨y, stored⟩ := given
        cases stored
  | infinite negative =>
      refine iff_of_false (fun given => ?_) id
      obtain ⟨y, stored⟩ := given
      cases stored
  | nan => exact iff_of_true ⟨_, rfl⟩ trivial

theorem productRow_fits_iff {p : OzonProduct} :
    (∃ row, productRow p = .ok row) ↔ FitsColumn p.price := by
  rw [← fitsColumn_iff]
  constructor
  · intro given
    obtain ⟨row, stored⟩ := given
    obtain ⟨price, fits, -⟩ := bind_ok stored
    exact ⟨price, fits⟩
  · intro given
    obtain ⟨price, fits⟩ := given
    exact ⟨{ p with price := price }, by rw [productRow, fits]; rfl⟩

theorem upsertBatchOzon_isSome_iff (t : Products) (products : List OzonProduct) :
    (upsertBatchOzon t products).toOption.isSome = true ↔
      (products.map OzonProduct.id).Nodup ∧
        ∀ p ∈ products, FitsColumn p.price := by
  have ids : (products.map storedRow).map OzonProduct.id = products.map OzonProduct.id := by
    rw [List.map_map]
    rfl
  by_cases fits : ∀ p ∈ products, FitsColumn p.price
  · have copied : products.mapM productRow = .ok (products.map storedRow) := by
      apply mapM_ok
      intro p mem
      obtain ⟨row, stored⟩ := productRow_fits_iff.mpr (fits p mem)
      rw [stored, productRow_ok stored]
    simp only [upsertBatchOzon, copied, ok_bind, Table.upsertAll, ids]
    split
    · rename_i distinct
      exact iff_of_true rfl ⟨distinct, fits⟩
    · rename_i double
      refine iff_of_false (fun given => ?_) fun given => double given.1
      cases given
  · have refused : ¬ (upsertBatchOzon t products).toOption.isSome = true := by
      intro given
      obtain ⟨u, written⟩ := Option.isSome_iff_exists.mp given
      cases stored : upsertBatchOzon t products with
      | error e =>
          rw [stored] at written
          cases written
      | ok table =>
          obtain ⟨rows, copied, -⟩ := bind_ok stored
          exact fits fun p mem => productRow_fits_iff.mp (mapM_ok_mem copied mem)
    exact iff_of_false refused fun given => fits given.2

variable {items : List Fields} {details : List OzonProduct} {r : Reply}

theorem committed_iff (blank : ∀ p ∈ details, sellingPart p = (.finite 0, "", 0)) :
    committed (withPrices details (items.map priceProduct)) r = true ↔
      Accepted r.dbOk items details := by
  have empty : (withPrices details (items.map priceProduct)).isEmpty = true ↔ details = [] := by
    rw [List.isEmpty_iff, withPrices, List.map_eq_nil_iff]
  have fits : (∀ p ∈ withPrices details (items.map priceProduct), FitsColumn p.price) ↔
      ∀ p ∈ details, ∀ o, lastItem items p.sku = some o → FitsColumn (priceProduct o).price := by
    simp only [withPrices, List.forall_mem_map, priceOf_map]
    apply forall₂_congr
    intro p mem
    cases found : lastItem items p.sku with
    | some o => simp
    | none =>
        have zero : p.price = .finite 0 := congrArg Prod.fst (blank p mem)
        have fits : FitsColumn (.finite 0) := by norm_num [FitsColumn, roundTo]
        simp [zero, fits]
  simp only [committed, Bool.or_eq_true, Bool.and_eq_true, upsertBatchOzon_isSome_iff, empty,
    map_id_withPrices, fits, Accepted]

variable {s : Shared} {p : OzonProduct}

theorem stored_of_accepted (blank : ∀ p ∈ details, sellingPart p = (.finite 0, "", 0))
    (accepted : Accepted r.dbOk items details) (here : p ∈ details) :
    writtenRow items p ∈ (upsertProducts s r.dbOk
      (withPrices details (items.map priceProduct))).products.rows := by
  rw [mem_upsertProducts ((committed_iff blank).mpr accepted), map_storedRow_withPrices]
  exact Or.inl (List.mem_map.mpr ⟨p, here, rfl⟩)

theorem kept_of_left_out (blank : ∀ p ∈ details, sellingPart p = (.finite 0, "", 0))
    (accepted : Accepted r.dbOk items details) (left_out : p.id ∉ details.map OzonProduct.id)
    (row : OzonProduct) (same : row.id = p.id) :
    row ∈ (upsertProducts s r.dbOk (withPrices details (items.map priceProduct))).products.rows ↔
      row ∈ s.products.rows := by
  rw [mem_upsertProducts ((committed_iff blank).mpr accepted), map_storedRow_withPrices,
    map_id_withPrices]
  constructor
  · intro given
    rcases given with new | ⟨old, -⟩
    · obtain ⟨q, q_mem, rfl⟩ := List.mem_map.mp new
      rw [writtenRow_id] at same
      exact absurd (List.mem_map.mpr ⟨q, q_mem, same⟩) left_out
    · exact old
  · intro old
    exact Or.inr ⟨old, same ▸ left_out⟩

end Batches

/-- The two steps of the run that fetch the prices of a page and write it, with whatever other
processes do in between. -/
theorem storePage_runStep {conf : Conf} {i : Nat} {s₁ s₂ s' : Shared} {v : RunVars}
    {page : OzonPage} {details : List OzonProduct} {r₁ r₂ : Reply} {pc pc' : Pc}
    (fetched : runStep conf i s₁ (.fetchPrices v page details) r₁ = some (s₁, pc))
    (written : runStep conf i s₂ pc r₂ = some (s', pc')) :
    s'.products = storePage s₂ r₂.dbOk details r₁.http := by
  cases fetched
  cases written
  rfl

/-- For every page, the answers to its two requests and the table before it: each product of the page
is priced right and not set to zero exactly when each written one is covered by the answer or by its
stored row, and each unwritten one has no price item that its stored row does not hold already. -/
theorem page_prices_right_iff (s : Shared) (page : OzonPage) (info prices : HttpReply) (r : Reply) :
    (∀ p ∈ pageProducts page (pageDetails page info),
        PricedRight (priceItems (pageDetails page info) prices) s.products
            (storePage s r.dbOk (pageDetails page info) prices) p ∧
          NotZeroed (priceItems (pageDetails page info) prices) s.products
            (storePage s r.dbOk (pageDetails page info) prices) p) ↔
      ∀ p ∈ pageProducts page (pageDetails page info),
        (Written r.dbOk (priceItems (pageDetails page info) prices) (pageDetails page info) p →
            Covered (priceItems (pageDetails page info) prices) s.products p) ∧
          (¬ Written r.dbOk (priceItems (pageDetails page info) prices) (pageDetails page info) p →
            AlreadyPriced (priceItems (pageDetails page info) prices) s.products p) := by
  have blank : ∀ p ∈ pageDetails page info, sellingPart p = (.finite 0, "", 0) :=
    fun p mem => sellingPart_info mem
  generalize pageDetails page info = details at blank ⊢
  apply forall₂_congr
  intro p mem
  unfold storePage
  rw [fetchPricesStocksBatch_eq]
  by_cases accepted : Accepted r.dbOk (priceItems details prices) details
  · by_cases here : p ∈ details
    · simp only [Written, accepted, here, and_self, forall_const, not_true_eq_false, false_implies,
        and_true]
      exact written_right_iff (blank p here) (stored_of_accepted blank accepted here)
    · have left_out : p.id ∉ details.map OzonProduct.id := by
        rcases List.mem_append.mp mem with answered | listed
        · exact absurd answered here
        · exact of_decide_eq_true (List.mem_filter.mp listed).2
      simp only [Written, here, and_false, not_false_eq_true, forall_const, false_implies, true_and]
      exact unwritten_right_iff (kept_of_left_out blank accepted left_out)
  · have refused : committed (withPrices details ((priceItems details prices).map priceProduct))
        r = false := by
      rw [Bool.eq_false_iff]
      exact fun ok => accepted ((committed_iff blank).mp ok)
    rw [upsertProducts_refused refused]
    simp only [Written, accepted, false_and, not_false_eq_true, forall_const, false_implies,
      true_and]
    exact unwritten_right_iff fun _ _ => Iff.rfl

section Sample

def storedLamp : OzonProduct where
  id := "1"
  sku := "LAMP"
  price := .finite 100
  currency := "RUB"
  inStock := 3

def lampStore : Shared where
  products := { rows := [storedLamp], unique := by simp }

def lampPage : OzonPage where
  items := [{ id := "1", sku := "LAMP" }]

def lampInfo : HttpReply where
  statusCode := 200
  body := .ok (.object [("items",
    .array [.object [("id", .int64 1), ("offer_id", .string "LAMP")]])])

def failedPrices : HttpReply where
  statusCode := 500
  body := .error ""

/-- A prices request that is answered with an error replaces the stored price of 100 by zero. -/
theorem failed_prices_zero :
    ¬ ∀ p ∈ pageProducts lampPage (pageDetails lampPage lampInfo),
      PricedRight (priceItems (pageDetails lampPage lampInfo) failedPrices) lampStore.products
          (storePage lampStore true (pageDetails lampPage lampInfo) failedPrices) p ∧
        NotZeroed (priceItems (pageDetails lampPage lampInfo) failedPrices) lampStore.products
          (storePage lampStore true (pageDetails lampPage lampInfo) failedPrices) p := by
  intro all
  have zeroed : ∃ row ∈ (storePage lampStore true (pageDetails lampPage lampInfo)
      failedPrices).rows, row.id = "1" ∧ row.price = .finite 0 := by decide +kernel
  obtain ⟨row, mem, same, zero⟩ := zeroed
  obtain ⟨o, listed, -⟩ := (all { id := "1", sku := "LAMP" } (by decide)).2 storedLamp (by decide)
    rfl (by decide) row mem same zero
  cases listed

end Sample

end Scand.Ozon.Prices
