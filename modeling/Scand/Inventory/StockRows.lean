/- path: Scand/Inventory/StockRows
   layer: results
   digest: The stock rows of a snapshot: one for each product and warehouse with the whole quantities of
   all its balance rows, and when what they leave out stays below one piece. -/

import Scand.Inventory.PullOrder
import Mathlib.Algebra.Order.BigOperators.Group.List
import Mathlib.Algebra.Order.Floor.Ring
import Mathlib.Data.List.Dedup
import Mathlib.Data.Rat.Floor

set_option autoImplicit false
set_option relaxedAutoImplicit false

namespace Scand.Inventory.StockRows

open Scand.Foundation.Accumulate
open Scand.Inventory.PullOrder
open Scand.Inventory.PullToSnapshot
open Scand.Inventory.Snapshot
open Scand.Ka2.Pull

def pairOf (s : StockBalance) : String × String := (s.nomenclatureKey, s.warehouseKey)

def rowsOf (pull : PullResult) (pair : String × String) : List StockBalance :=
  pull.stocks.filter fun s => pairOf s = pair

def pieces (pull : PullResult) (pair : String × String) : Int :=
  ((rowsOf pull pair).map fun s => ⌊s.quantity⌋).sum

def Nonnegative (pull : PullResult) : Prop := ∀ s ∈ pull.stocks, 0 ≤ s.quantity

/-- What is expected of the stock rows that are made of a pull. -/
structure Grouped (pull : PullResult) (offerByRef : String → Option String)
    (allowedWarehouses : List String) (stocks : List StockInput) : Prop where
  pairs : (stocks.map StockInput.key).Perm
    ((pull.stocks.filter (eligible allowedWarehouses)).map pairOf).dedup
  available : ∀ row ∈ stocks, row.available = pieces pull row.key
  reserved : ∀ row ∈ stocks, row.reserved = 0
  offers : ∀ row ∈ stocks, ∀ offer,
    row.offerId = some offer ↔ offerByRef row.sku1c = some offer ∧ offer ≠ ""

/-- Each row is less than one piece off the exact balance of its product and warehouse. -/
def WithinOne (pull : PullResult) (stocks : List StockInput) : Prop :=
  ∀ row ∈ stocks,
    |(row.available : ℚ) - ((rowsOf pull row.key).map StockBalance.quantity).sum| < 1

theorem truncate_of_nonneg {q : ℚ} (nonneg : 0 ≤ q) (small : ⌊q⌋ < 2 ^ 63) :
    truncate q = ⌊q⌋ := by
  have whole : q.num.tdiv q.den = ⌊q⌋ := by
    rw [Rat.floor_def', Int.tdiv_eq_ediv_of_nonneg (Rat.num_nonneg.mpr nonneg)]
  have floor : 0 ≤ ⌊q⌋ := Int.floor_nonneg.mpr nonneg
  rw [truncate, whole]
  exact if_pos (by omega)

theorem toInt64_lt (i : Int) : toInt64 i < 2 ^ 63 := by
  have bound := Int.bmod_lt (x := i) (m := 2 ^ 64) (by decide)
  rw [toInt64]
  omega

theorem toInt64_of_fits {i : Int} (nonneg : 0 ≤ i) (small : i < 2 ^ 63) : toInt64 i = i :=
  Int.bmod_eq_of_le_mul_two (by omega) (by omega)

theorem toInt64_add (i j : Int) : toInt64 (toInt64 i + j) = toInt64 (i + j) := Int.bmod_add_bmod

section Groups

variable {pull : PullResult} {offerByRef : String → Option String} {allowed : List String}

def stockRow (pull : PullResult) (offerByRef : String → Option String) (s : StockBalance) :
    StockInput :=
  { freshStock pull offerByRef s with
    available := toInt64 ((rowsOf pull (pairOf s)).map fun r => truncate r.quantity).sum }

theorem foldl_addStock (rows : List StockBalance) (fresh : StockBalance → StockInput)
    (acc : StockInput) (total : Int) :
    rows.foldl (fun found row => some (addStock row (found.getD (fresh row))))
        (some { acc with available := toInt64 total }) =
      some { acc with
        available := toInt64 (total + (rows.map fun r => truncate r.quantity).sum) } := by
  induction rows generalizing total with
  | nil => simp
  | cons row rows ih =>
      have step : addStock row { acc with available := toInt64 total } =
          { acc with available := toInt64 (total + truncate row.quantity) } := by
        rw [addStock, toInt64_add]
      rw [List.foldl_cons, Option.getD_some, step, ih, List.map_cons, List.sum_cons, add_assoc]

theorem filter_stockKey (bars : KeysWithoutBar pull) {s : StockBalance} (mem : s ∈ pull.stocks)
    (taken : eligible allowed s = true) :
    ((pull.stocks.filter (eligible allowed)).filter fun r => stockKey r = stockKey s) =
      rowsOf pull (pairOf s) := by
  rw [rowsOf, List.filter_filter]
  refine List.filter_congr fun r listed => ?_
  have same_iff : stockKey r = stockKey s ↔ pairOf r = pairOf s := by
    constructor
    · intro same
      obtain ⟨product, warehouse⟩ := stockKey_inj (bars r listed).1 (bars s mem).1 same
      exact Prod.ext product warehouse
    · intro same
      have product : r.nomenclatureKey = s.nomenclatureKey := congrArg Prod.fst same
      have warehouse : r.warehouseKey = s.warehouseKey := congrArg Prod.snd same
      rw [stockKey, stockKey, product, warehouse]
  by_cases same : pairOf r = pairOf s
  · have product : r.nomenclatureKey = s.nomenclatureKey := congrArg Prod.fst same
    have warehouse : r.warehouseKey = s.warehouseKey := congrArg Prod.snd same
    have taken_too : eligible allowed r = true := by
      rw [← taken, eligible, eligible, product, warehouse]
    simp [same_iff, same, taken_too]
  · simp [same_iff, same]

theorem lookup_byKey (bars : KeysWithoutBar pull) {s : StockBalance} (mem : s ∈ pull.stocks)
    (taken : eligible allowed s = true) :
    (byKey pull offerByRef allowed).lookup (stockKey s) = some (stockRow pull offerByRef s) := by
  rw [byKey, lookup_accumulate, filter_stockKey bars mem taken, List.lookup_nil, stockRow]
  have own : s ∈ rowsOf pull (pairOf s) := List.mem_filter.mpr ⟨mem, by simp⟩
  cases group : rowsOf pull (pairOf s) with
  | nil =>
      rw [group] at own
      cases own
  | cons first rest =>
      have listed : first ∈ rowsOf pull (pairOf s) := group ▸ List.mem_cons_self
      have same : pairOf first = pairOf s := of_decide_eq_true (List.mem_filter.mp listed).2
      have product : first.nomenclatureKey = s.nomenclatureKey := congrArg Prod.fst same
      have warehouse : first.warehouseKey = s.warehouseKey := congrArg Prod.snd same
      have fresh : freshStock pull offerByRef first = freshStock pull offerByRef s := by
        rw [freshStock, freshStock, product, warehouse]
      have begun : addStock first (freshStock pull offerByRef first) =
          { freshStock pull offerByRef s with available := toInt64 (truncate first.quantity) } := by
        rw [addStock, fresh, freshStock, zero_add]
      rw [List.foldl_cons, Option.getD_none, begun, foldl_addStock, List.map_cons, List.sum_cons]

theorem mem_stocks_iff (bars : KeysWithoutBar pull) (order : HashOrder) (period : String)
    (isPreview : Bool) {row : StockInput} :
    row ∈ (pullToSnapshot pull offerByRef allowed order period isPreview).stocks ↔
      ∃ s ∈ pull.stocks, eligible allowed s = true ∧ row = stockRow pull offerByRef s := by
  have distinct : ((byKey pull offerByRef allowed).map Prod.fst).Nodup :=
    nodup_keys_accumulate _ List.nodup_nil
  have keys : (byKey pull offerByRef allowed).map Prod.fst = (creating pull allowed).map stockKey :=
    accumulate_map (by intro _ _ _; rfl) (pull.stocks.filter (eligible allowed)) []
  simp only [pullToSnapshot, List.mem_map, (order.stocks_perm _).mem_iff]
  constructor
  · rintro ⟨⟨key, acc⟩, mem, rfl⟩
    have known : key ∈ (creating pull allowed).map stockKey :=
      keys ▸ List.mem_map_of_mem (f := Prod.fst) mem
    obtain ⟨s, created, rfl⟩ := List.mem_map.mp known
    obtain ⟨mem_s, taken⟩ := List.mem_filter.mp (mem_of_mem_firsts created)
    have found := (mem_iff_lookup distinct).mp mem
    rw [lookup_byKey bars mem_s taken] at found
    exact ⟨s, mem_s, taken, (Option.some.inj found).symm⟩
  · rintro ⟨s, mem, taken, rfl⟩
    exact ⟨(stockKey s, stockRow pull offerByRef s),
      (mem_iff_lookup distinct).mpr (lookup_byKey bars mem taken), rfl⟩

theorem floors_nonneg (nonneg : Nonnegative pull) (pair : String × String) :
    ∀ n ∈ (rowsOf pull pair).map fun r => ⌊r.quantity⌋, 0 ≤ n := by
  intro n listed
  obtain ⟨r, mem, rfl⟩ := List.mem_map.mp listed
  exact Int.floor_nonneg.mpr (nonneg r (List.mem_filter.mp mem).1)

theorem stockRow_available_iff (nonneg : Nonnegative pull) (s : StockBalance) :
    (stockRow pull offerByRef s).available = pieces pull (pairOf s) ↔
      pieces pull (pairOf s) < 2 ^ 63 := by
  constructor
  · intro same
    rw [← same]
    exact toInt64_lt _
  · intro small
    have whole : ∀ r ∈ rowsOf pull (pairOf s), truncate r.quantity = ⌊r.quantity⌋ := by
      intro r listed
      have part : ⌊r.quantity⌋ ≤ pieces pull (pairOf s) :=
        List.single_le_sum (floors_nonneg nonneg _) _
          (List.mem_map.mpr ⟨r, listed, rfl⟩)
      exact truncate_of_nonneg (nonneg r (List.mem_filter.mp listed).1) (lt_of_le_of_lt part small)
    rw [stockRow, List.map_congr_left whole]
    exact toInt64_of_fits (List.sum_nonneg (floors_nonneg nonneg _)) small

theorem sum_quantities (rows : List StockBalance) :
    (rows.map StockBalance.quantity).sum =
      ((rows.map fun s => ⌊s.quantity⌋).sum : ℚ) + (rows.map fun s => Int.fract s.quantity).sum := by
  induction rows with
  | nil => simp
  | cons s rows ih =>
      have own := Int.floor_add_fract s.quantity
      simp only [List.map_cons, List.sum_cons, ih]
      push_cast
      linarith

theorem fractions_nonneg (rows : List StockBalance) :
    0 ≤ (rows.map fun r => Int.fract r.quantity).sum := by
  refine List.sum_nonneg fun x listed => ?_
  obtain ⟨r, -, rfl⟩ := List.mem_map.mp listed
  exact Int.fract_nonneg r.quantity

theorem stockRow_within_one_iff (nonneg : Nonnegative pull) (s : StockBalance) :
    |((stockRow pull offerByRef s).available : ℚ) -
          ((rowsOf pull (pairOf s)).map StockBalance.quantity).sum| < 1 ↔
      ((rowsOf pull (pairOf s)).map fun r => Int.fract r.quantity).sum < 1 ∧
        pieces pull (pairOf s) < 2 ^ 63 := by
  have cut := fractions_nonneg (rowsOf pull (pairOf s))
  have exact_sum : ((rowsOf pull (pairOf s)).map StockBalance.quantity).sum =
      (pieces pull (pairOf s) : ℚ) +
        ((rowsOf pull (pairOf s)).map fun r => Int.fract r.quantity).sum := sum_quantities _
  by_cases small : pieces pull (pairOf s) < 2 ^ 63
  · have counted : (stockRow pull offerByRef s).available = pieces pull (pairOf s) :=
      (stockRow_available_iff nonneg s).mpr small
    rw [exact_sum, counted, sub_add_cancel_left, abs_neg, abs_of_nonneg cut]
    exact (and_iff_left small).symm
  · refine iff_of_false (fun near => ?_) fun given => small given.2
    have below : (stockRow pull offerByRef s).available + 1 ≤ pieces pull (pairOf s) := by
      have bound : (stockRow pull offerByRef s).available < 2 ^ 63 := toInt64_lt _
      omega
    have apart : ((stockRow pull offerByRef s).available : ℚ) + 1 ≤ pieces pull (pairOf s) := by
      exact_mod_cast below
    have close := (abs_lt.mp near).1
    rw [exact_sum] at close
    linarith

end Groups

section Results

variable (pull : PullResult) (offerByRef : String → Option String) (allowed : List String)
  (order : HashOrder) (period : String) (isPreview : Bool)

/-- The stock rows of a snapshot are those of the products and warehouses in its pull, each with the
sum of the integer parts of its quantities, exactly where 64 bits hold each of these sums. -/
theorem stocks_grouped_iff (bars : KeysWithoutBar pull) (nonneg : Nonnegative pull) :
    Grouped pull offerByRef allowed
        (pullToSnapshot pull offerByRef allowed order period isPreview).stocks ↔
      ∀ s ∈ pull.stocks, eligible allowed s = true → pieces pull (pairOf s) < 2 ^ 63 := by
  constructor
  · intro grouped s mem taken
    have row := grouped.available _
      ((mem_stocks_iff bars order period isPreview).mpr ⟨s, mem, taken, rfl⟩)
    exact (stockRow_available_iff nonneg s).mp row
  · intro small
    refine { pairs := ?_, available := ?_, reserved := ?_, offers := ?_ }
    · refine (List.perm_ext_iff_of_nodup
        (nodup_stock_keys offerByRef allowed pull order period isPreview)
        (List.nodup_dedup _)).mpr fun pair => ?_
      rw [List.mem_dedup, List.mem_map, List.mem_map]
      constructor
      · rintro ⟨row, mem, rfl⟩
        obtain ⟨s, mem_s, taken, rfl⟩ := (mem_stocks_iff bars order period isPreview).mp mem
        exact ⟨s, List.mem_filter.mpr ⟨mem_s, taken⟩, rfl⟩
      · rintro ⟨s, listed, rfl⟩
        obtain ⟨mem, taken⟩ := List.mem_filter.mp listed
        exact ⟨_, (mem_stocks_iff bars order period isPreview).mpr ⟨s, mem, taken, rfl⟩, rfl⟩
    · intro row mem
      obtain ⟨s, mem_s, taken, rfl⟩ := (mem_stocks_iff bars order period isPreview).mp mem
      exact (stockRow_available_iff nonneg s).mpr (small s mem_s taken)
    · intro row mem
      obtain ⟨s, -, -, rfl⟩ := (mem_stocks_iff bars order period isPreview).mp mem
      rfl
    · intro row mem offer
      obtain ⟨s, -, -, rfl⟩ := (mem_stocks_iff bars order period isPreview).mp mem
      simp [stockRow, freshStock, Option.filter_eq_some_iff]

/-- The stock rows are less than one piece off exactly where, for each product and warehouse, the
fractions of the balance rows, each of which is cut off, stay below one piece together, and 64 bits
hold the number of whole pieces. -/
theorem available_within_one_iff (bars : KeysWithoutBar pull) (nonneg : Nonnegative pull) :
    WithinOne pull (pullToSnapshot pull offerByRef allowed order period isPreview).stocks ↔
      ∀ s ∈ pull.stocks, eligible allowed s = true →
        ((rowsOf pull (pairOf s)).map fun r => Int.fract r.quantity).sum < 1 ∧
          pieces pull (pairOf s) < 2 ^ 63 := by
  constructor
  · intro near s mem taken
    have row := near _ ((mem_stocks_iff bars order period isPreview).mpr ⟨s, mem, taken, rfl⟩)
    exact (stockRow_within_one_iff nonneg s).mp row
  · intro given row mem
    obtain ⟨s, mem_s, taken, rfl⟩ := (mem_stocks_iff bars order period isPreview).mp mem
    exact (stockRow_within_one_iff nonneg s).mpr (given s mem_s taken)

end Results

section Sample

def twoCharacteristics (quantity : ℚ) : PullResult where
  stocks := [
    { nomenclatureKey := "p-1", characteristicKey := "red", warehouseKey := "wh-1", quantity := quantity },
    { nomenclatureKey := "p-1", characteristicKey := "blue", warehouseKey := "wh-1", quantity := quantity }]

theorem twoCharacteristics_bars (quantity : ℚ) : KeysWithoutBar (twoCharacteristics quantity) := by
  intro s mem
  simp only [twoCharacteristics, List.mem_cons, List.not_mem_nil, or_false] at mem
  rcases mem with rfl | rfl <;>
    · dsimp only
      decide

theorem twoCharacteristics_nonneg {quantity : ℚ} (nonneg : 0 ≤ quantity) :
    Nonnegative (twoCharacteristics quantity) := by
  intro s mem
  simp only [twoCharacteristics, List.mem_cons, List.not_mem_nil, or_false] at mem
  rcases mem with rfl | rfl <;> exact nonneg

/-- Of 10^19 pieces in each of two characteristics none is counted. -/
theorem huge_quantities_lost : ¬ Grouped (twoCharacteristics (10 ^ 19)) (fun _ => none) []
    (pullToSnapshot (twoCharacteristics (10 ^ 19)) (fun _ => none) [] walkAsStored
      "2026-09-23T00:00:00" false).stocks := by
  have lost : ∃ row ∈ (pullToSnapshot (twoCharacteristics (10 ^ 19)) (fun _ => none) []
      walkAsStored "2026-09-23T00:00:00" false).stocks,
      row.available ≠ pieces (twoCharacteristics (10 ^ 19)) row.key := by decide +kernel
  obtain ⟨row, mem, other⟩ := lost
  exact fun grouped => other (grouped.available row mem)

theorem stocks_grouped_iff_two : Grouped (twoCharacteristics (5 / 2))
    (fun product => if product = "p-1" then some "LAMP" else none) ["wh-1"]
    (pullToSnapshot (twoCharacteristics (5 / 2))
      (fun product => if product = "p-1" then some "LAMP" else none) ["wh-1"] walkAsStored
      "2026-09-23T00:00:00" false).stocks := by
  refine (stocks_grouped_iff _ _ _ _ _ _ (twoCharacteristics_bars _)
    (twoCharacteristics_nonneg (by norm_num))).mpr ?_
  decide +kernel

/-- Of half a piece in each of two characteristics nothing is left, though together they are one. -/
theorem halves_lost : ¬ WithinOne (twoCharacteristics (1 / 2))
    (pullToSnapshot (twoCharacteristics (1 / 2)) (fun _ => none) [] walkAsStored
      "2026-09-23T00:00:00" false).stocks := by
  unfold WithinOne
  decide +kernel

theorem available_within_one_iff_third : WithinOne (twoCharacteristics (1 / 3))
    (pullToSnapshot (twoCharacteristics (1 / 3)) (fun _ => none) [] walkAsStored
      "2026-09-23T00:00:00" false).stocks := by
  refine (available_within_one_iff _ _ _ _ _ _ (twoCharacteristics_bars _)
    (twoCharacteristics_nonneg (by norm_num))).mpr ?_
  decide +kernel

end Sample

end Scand.Inventory.StockRows
