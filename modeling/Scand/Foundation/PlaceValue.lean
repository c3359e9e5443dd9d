/- path: Scand/Foundation/PlaceValue
   layer: library
   digest: Numbers of a fixed width in any base, most significant place first, and numbers read from
   their hexadecimal digits. -/

import Mathlib.Data.List.Induction
import Mathlib.Data.Nat.Basic
import Mathlib.Tactic.Ring

set_option autoImplicit false
set_option relaxedAutoImplicit false

namespace Scand.Foundation.PlaceValue

def places (b : Nat) : Nat → Nat → List Nat
  | 0, _ => []
  | k + 1, n => n / b ^ k % b :: places b k n

def value (b : Nat) (ds : List Nat) : Nat := ds.foldl (fun acc d => acc * b + d) 0

section FixedWidth

variable {b : Nat} (k m n : Nat)

theorem length_places : (places b k n).length = k := by
  induction k with
  | zero => rfl
  | succ k ih => rw [places, List.length_cons, ih]

theorem places_lt (pos : 0 < b) : ∀ d ∈ places b k n, d < b := by
  induction k with
  | zero => simp [places]
  | succ k ih =>
      intro d mem
      rcases List.mem_cons.mp mem with rfl | later
      · exact Nat.mod_lt _ pos
      · exact ih d later

theorem places_add : places b (m + k) n = places b m (n / b ^ k) ++ places b k n := by
  induction m with
  | zero => rw [Nat.zero_add, places, List.nil_append]
  | succ m ih =>
      rw [Nat.succ_add, places, places, ih, List.cons_append, Nat.div_div_eq_div_mul, ← Nat.pow_add,
        Nat.add_comm m k]

theorem places_mod {k m : Nat} (fits : k ≤ m) : places b k (n % b ^ m) = places b k n := by
  induction k with
  | zero => rfl
  | succ k ih =>
      have split_at : b ^ m = b ^ k * b ^ (m - k) := by
        rw [← Nat.pow_add]
        congr 1
        omega
      have last : b ∣ b ^ (m - k) := dvd_pow_self b (by omega)
      rw [places, places, ih (by omega), split_at, Nat.mod_mul_right_div_self,
        Nat.mod_mod_of_dvd _ last]

private theorem foldl_places (ds : List Nat) (init : Nat) :
    ds.foldl (fun acc d => acc * b + d) init = init * b ^ ds.length + value b ds := by
  induction ds generalizing init with
  | nil => simp [value]
  | cons d ds ih =>
      rw [value, List.foldl_cons, List.foldl_cons, ih, ih (0 * b + d), List.length_cons, pow_succ]
      ring

theorem value_cons (d : Nat) (ds : List Nat) :
    value b (d :: ds) = d * b ^ ds.length + value b ds := by
  rw [value, List.foldl_cons, foldl_places, zero_mul, zero_add]

theorem value_places : value b (places b k n) = n % b ^ k := by
  induction k with
  | zero => simp [places, value, Nat.mod_one]
  | succ k ih =>
      rw [places, value_cons, length_places, ih, Nat.mod_pow_succ]
      ring

theorem places_inj {k m n : Nat} (small_m : m < b ^ k) (small_n : n < b ^ k) :
    places b k m = places b k n ↔ m = n := by
  constructor
  · intro same
    have values := congrArg (value b) same
    rw [value_places, value_places, Nat.mod_eq_of_lt small_m, Nat.mod_eq_of_lt small_n] at values
    exact values
  · intro same
    rw [same]

end FixedWidth

section Hexadecimal

def hexDigit (c : Char) : Option Nat :=
  if '0' ≤ c ∧ c ≤ '9' then some (c.toNat - '0'.toNat)
  else if 'a' ≤ c ∧ c ≤ 'f' then some (c.toNat - 'a'.toNat + 10)
  else if 'A' ≤ c ∧ c ≤ 'F' then some (c.toNat - 'A'.toNat + 10)
  else none

def readHex (text : List Char) : Option Nat :=
  text.foldlM (fun acc c => (hexDigit c).map fun d => acc * 16 + d) 0

theorem hexDigit_digitChar {d : Nat} (small : d < 16) : hexDigit d.digitChar = some d := by
  revert d
  decide

theorem readHex_snoc (text : List Char) (c : Char) :
    readHex (text ++ [c]) =
      (readHex text).bind fun acc => (hexDigit c).map fun d => acc * 16 + d := by
  rw [readHex, List.foldlM_append]
  simp only [readHex, List.foldlM_cons, List.foldlM_nil, bind_pure]
  rfl

theorem hexDigit_of_readHex {text : List Char} {n : Nat} (read : readHex text = some n) :
    ∀ c ∈ text, (hexDigit c).isSome = true := by
  induction text using List.reverseRecOn generalizing n with
  | nil => simp
  | append_singleton text c ih =>
      rw [readHex_snoc] at read
      obtain ⟨acc, before, last⟩ := Option.bind_eq_some_iff.mp read
      obtain ⟨d, digit, -⟩ := Option.map_eq_some_iff.mp last
      intro c' mem
      rcases List.mem_append.mp mem with here | here
      · exact ih before c' here
      · rw [List.mem_singleton.mp here, digit]
        rfl

theorem readHex_toDigits (n : Nat) : readHex (Nat.toDigits 16 n) = some n := by
  induction n using Nat.strongRecOn with
  | ind n ih =>
      rw [Nat.toDigits_eq_if (by decide)]
      split
      · rename_i small
        simp [readHex, hexDigit_digitChar small]
      · rename_i large
        rw [readHex_snoc, ih (n / 16) (by omega), hexDigit_digitChar (Nat.mod_lt n (by decide))]
        simp only [Option.bind_some, Option.map_some, Option.some.injEq]
        omega

end Hexadecimal

end Scand.Foundation.PlaceValue
