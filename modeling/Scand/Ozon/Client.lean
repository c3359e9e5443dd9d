/- path: Scand/Ozon/Client
   layer: code model
   digest: OzonClient: what the answers of the listing, the product info and the price requests are
   read as. -/

import Scand.Foundation.JsonValue
import Mathlib.Algebra.Ring.Int.Defs
import Mathlib.Algebra.Ring.Nat

set_option autoImplicit false
set_option relaxedAutoImplicit false

namespace Scand.Ozon.Client

open Scand.Foundation.JsonValue

structure OzonProduct where
  id : String := ""
  sku : String := ""
  name : String := ""
  price : Number := .finite 0
  currency : String := ""
  inStock : Int := 0
  description : String := ""
  weight : Int := 0
  createdAt : String := ""
  updatedAt : String := ""
  scategorie : String := ""
  relatedProducts : String := ""
  deriving DecidableEq

structure OzonPage where
  items : List OzonProduct := []
  lastId : String := ""
  hasMore : Bool := false
  networkError : Bool := false
  total : Int := 0
  deriving DecidableEq

def strField (o : Fields) (key : String) : String :=
  ((o.lookup key).bind Json.asString?).getD ""

def intField (o : Fields) (key : String) : Option Int := (o.lookup key).bind Json.asInt64?

def toInt32 (i : Int) : Int := Int.bmod i (2 ^ 32)

/-- A value that `as_array()` accepts; anything else throws. -/
def needArray : Json → Except String (List Json)
  | .array items => .ok items
  | _ => .error "value is not an array"

def needObject : Json → Except String Fields
  | .object o => .ok o
  | _ => .error "value is not an object"

/-- An item of the listing; one without an integer product id is skipped. -/
def listedProduct (o : Fields) : Option OzonProduct :=
  (intField o "product_id").map fun id => { id := toString id, sku := strField o "offer_id" }

def readPage (data : Json) : Except String OzonPage :=
  match data with
  | .object o =>
      match o.lookup "result" with
      | none => .ok {}
      | some result => do
          let res ← needObject result
          let items ← match res.lookup "items" with
            | none => .ok []
            | some items => needArray items
          return {
            items := (Json.objects items).filterMap listedProduct
            lastId := strField res "last_id"
            total := (intField res "total").getD 0 }
  | _ => .ok {}

def fetchPageCursor (pageSize : Int) (r : HttpReply) : OzonPage :=
  if r.statusCode ≠ 200 then { networkError := true }
  else
    match r.body.bind readPage with
    | .error _ => { networkError := true }
    | .ok page => { page with hasMore := page.items ≠ [] ∧ page.items.length = pageSize }

theorem hasMore_fetchPageCursor {pageSize : Int} {r : HttpReply}
    (answered : (fetchPageCursor pageSize r).networkError = false) :
    (fetchPageCursor pageSize r).hasMore = true ↔
      (fetchPageCursor pageSize r).items ≠ [] ∧
        (fetchPageCursor pageSize r).items.length = pageSize := by
  unfold fetchPageCursor at answered ⊢
  split at answered
  · cases answered
  · split at answered
    · cases answered
    · simp_all

def infoProduct (o : Fields) : Option OzonProduct :=
  (intField o "id").map fun id => {
    id := toString id
    sku := strField o "offer_id"
    name := strField o "name"
    scategorie := match intField o "description_category_id", intField o "type_id" with
      | some category, _ => toString category
      | none, some type => toString type
      | none, none => ""
    weight := ((intField o "weight").map toInt32).getD 0
    createdAt := strField o "created_at"
    updatedAt := strField o "updated_at"
    description := strField o "description" }

def readItems (data : Json) : Except String (List Fields) :=
  match data with
  | .object o =>
      match o.lookup "items" with
      | none => .ok []
      | some items => (needArray items).map Json.objects
  | _ => .ok []

/-- The items of an answer; `none` where the request failed or its body cannot be read, which the
client only writes to the console. -/
def answeredItems (r : HttpReply) : Option (List Fields) :=
  if r.statusCode ≠ 200 then none else (r.body.bind readItems).toOption

/-- `fetch_info_batch`: without ids nothing is requested. -/
def fetchInfoBatch (ids : List String) (r : HttpReply) : List OzonProduct :=
  if ids.isEmpty then []
  else
    match answeredItems r with
    | none => []
    | some items => items.filterMap infoProduct

def stockEntries (o : Fields) : List Fields :=
  (((o.lookup "stocks").bind Json.asObject?).bind fun stocks =>
    (stocks.lookup "stocks").bind Json.asArray?).elim [] Json.objects

/-- One turn of the loop over them, on its `int total`. -/
def addPresent (total : Int) (s : Fields) : Int :=
  match intField s "present" with
  | some present => toInt32 (total + toInt32 present)
  | none => total

def presentStock (o : Fields) : Int := (stockEntries o).foldl addPresent 0

/-- An item of the price answer; nothing is skipped. -/
def priceProduct (o : Fields) : OzonProduct :=
  let price := ((o.lookup "price").bind Json.asObject?).getD []
  { sku := strField o "offer_id"
    price := (((price.lookup "price").bind Json.asString?).bind stod).getD (.finite 0)
    currency := strField price "currency_code"
    inStock := presentStock o }

def fetchPricesStocksBatch (skus : List String) (r : HttpReply) : List OzonProduct :=
  if skus.isEmpty then []
  else
    match answeredItems r with
    | none => []
    | some items => items.map priceProduct

/-- The prices by offer id; of several items the last one counts. -/
def priceOf (prices : List OzonProduct) (sku : String) : Option OzonProduct :=
  prices.reverse.find? fun p => p.sku = sku

/-- The loop that copies price, currency and stock onto the product info. -/
def withPrices (details prices : List OzonProduct) : List OzonProduct :=
  details.map fun p =>
    match priceOf prices p.sku with
    | some found => { p with price := found.price, currency := found.currency,
                             inStock := found.inStock }
    | none => p

def skusOf (details : List OzonProduct) : List String :=
  (details.filter fun p => p.sku ≠ "").map OzonProduct.sku

end Scand.Ozon.Client
