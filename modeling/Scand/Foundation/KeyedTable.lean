/- path: Scand/Foundation/KeyedTable
   layer: library
   digest: Tables that carry their UNIQUE key, statement-level inserts and upserts, column types. -/

import Mathlib.Data.List.Forall2
import Mathlib.Data.List.Nodup
import Mathlib.Data.List.Perm.Basic
import Mathlib.Data.Rat.Floor

set_option autoImplicit false
set_option relaxedAutoImplicit false

namespace Scand.Foundation.KeyedTable

/-- The ways in which a statement can be refused; a refused statement aborts its transaction. -/
inductive SqlError
  | uniqueViolation
  | foreignKeyViolation
  | cardinalityViolation
  | stringDataRightTruncation
  | numericValueOutOfRange
  | invalidDatetimeFormat
  deriving DecidableEq, Repr

/-- The value of a `VARCHAR(n)` column: a longer text is cut if blanks are all that it loses. -/
def varchar (n : Nat) (s : String) : Except SqlError String :=
  if s.length ≤ n then .ok s
  else if (s.toList.drop n).all (· = ' ') then .ok (String.ofList (s.toList.take n))
  else .error .stringDataRightTruncation

/-- The same for a text that has no blanks at its end, as far as a model keeps to such texts. -/
def varcharUncut (n : Nat) (s : String) : Except SqlError String :=
  if s.length ≤ n then .ok s else .error .stringDataRightTruncation

def int4 (i : Int) : Except SqlError Int :=
  if -2147483648 ≤ i ∧ i ≤ 2147483647 then .ok i else .error .numericValueOutOfRange

/-- Rounding to `scale` decimal places, halves away from zero. -/
def roundTo (scale : Nat) (x : ℚ) : ℚ :=
  if 0 ≤ x then (⌊x * 10 ^ scale + 1 / 2⌋ : ℚ) / 10 ^ scale
  else -((⌊-x * 10 ^ scale + 1 / 2⌋ : ℚ) / 10 ^ scale)

def numeric (precision scale : Nat) (x : ℚ) : Except SqlError ℚ :=
  if |roundTo scale x| < 10 ^ (precision - scale) then .ok (roundTo scale x)
  else .error .numericValueOutOfRange

theorem varcharUncut_ok {n : Nat} {s : String} (fits : s.length ≤ n) :
    varcharUncut n s = .ok s :=
  if_pos fits

theorem int4_ok {i : Int} (fits : -2147483648 ≤ i ∧ i ≤ 2147483647) : int4 i = .ok i :=
  if_pos fits

theorem numeric_value {precision scale : Nat} {x y : ℚ} (fits : numeric precision scale x = .ok y) :
    y = roundTo scale x := by
  unfold numeric at fits
  split at fits
  · exact (Except.ok.inj fits).symm
  · cases fits

@[simp] theorem ok_bind {α β : Type} (a : α) (f : α → Except SqlError β) :
    (Except.ok a >>= f) = f a := rfl

theorem bind_ok {α β : Type} {x : Except SqlError α} {f : α → Except SqlError β} {b : β}
    (h : (x >>= f) = .ok b) : ∃ a, x = .ok a ∧ f a = .ok b := by
  cases x with
  | error e => cases h
  | ok a => exact ⟨a, rfl, h⟩

/-- A traversal succeeds with the values that its steps give. -/
theorem mapM_ok_iff {ε α β : Type} {f : α → Except ε β} {l : List α} {l' : List β} :
    l.mapM f = .ok l' ↔ List.Forall₂ (fun a b => f a = .ok b) l l' := by
  induction l generalizing l' with
  | nil =>
      rw [List.mapM_nil, List.forall₂_nil_left_iff]
      exact ⟨fun same => (Except.ok.inj same).symm, fun same => by rw [same]; rfl⟩
  | cons a l ih =>
      rw [List.mapM_cons, List.forall₂_cons_left_iff]
      cases first : f a with
      | error e =>
          constructor
          · intro none_left
            cases none_left
          · rintro ⟨b, bs, none_left, -⟩
            cases none_left
      | ok b =>
          cases rest : l.mapM f with
          | error e =>
              constructor
              · intro none_left
                cases none_left
              · rintro ⟨b', bs, -, tail, -⟩
                rw [ih.mpr tail] at rest
                cases rest
          | ok bs =>
              constructor
              · intro same
                cases same
                exact ⟨b, bs, rfl, ih.mp rest, rfl⟩
              · rintro ⟨b', bs', head, tail, rfl⟩
                rw [ih.mpr tail] at rest
                cases head
                cases rest
                rfl

theorem mapM_ok {α β : Type} {f : α → Except SqlError β} {g : α → β} {l : List α}
    (accepted : ∀ a ∈ l, f a = .ok (g a)) : l.mapM f = .ok (l.map g) := by
  induction l with
  | nil => rfl
  | cons a l ih =>
      rw [List.mapM_cons, accepted a List.mem_cons_self,
        ih fun b hb => accepted b (List.mem_cons_of_mem _ hb)]
      rfl

theorem mapM_eq_map {α β : Type} {f : α → Except SqlError β} {g : α → β} {l : List α}
    {rows : List β} (only : ∀ a b, f a = .ok b → b = g a) (copied : l.mapM f = .ok rows) :
    rows = l.map g := by
  induction l generalizing rows with
  | nil =>
      cases copied
      rfl
  | cons a l ih =>
      rw [List.mapM_cons] at copied
      obtain ⟨b, head, copied⟩ := bind_ok copied
      obtain ⟨bs, tail, copied⟩ := bind_ok copied
      cases copied
      rw [only a b head, ih tail, List.map_cons]

theorem mapM_ok_mem {α β : Type} {f : α → Except SqlError β} {l : List α} {rows : List β}
    (copied : l.mapM f = .ok rows) {a : α} (mem : a ∈ l) : ∃ b, f a = .ok b := by
  induction l generalizing rows with
  | nil => cases mem
  | cons first l ih =>
      rw [List.mapM_cons] at copied
      obtain ⟨b, head, copied⟩ := bind_ok copied
      obtain ⟨bs, tail, -⟩ := bind_ok copied
      rcases List.mem_cons.mp mem with rfl | later
      · exact ⟨b, head⟩
      · exact ih tail later

theorem filter_key_of_nodup {ρ κ : Type} [DecidableEq κ] {key : ρ → κ} {rows : List ρ} {r : ρ}
    (nodup : (rows.map key).Nodup) (mem : r ∈ rows) :
    rows.filter (fun s => key s = key r) = [r] := by
  induction rows with
  | nil => cases mem
  | cons a rows ih =>
      simp only [List.map_cons, List.nodup_cons] at nodup
      rcases List.mem_cons.mp mem with rfl | tail
      · have rest : rows.filter (fun s => key s = key r) = [] := by
          simp only [List.filter_eq_nil_iff, decide_eq_true_eq]
          intro s hs equal
          exact nodup.1 (List.mem_map.mpr ⟨s, hs, equal⟩)
        simp [rest]
      · have other : key a ≠ key r := by
          intro equal
          exact nodup.1 (equal ▸ List.mem_map.mpr ⟨r, tail, rfl⟩)
        simp [other, ih nodup.2 tail]

theorem find?_key_of_nodup {ρ κ : Type} [DecidableEq κ] {key : ρ → κ} {rows : List ρ} {k : κ} {r : ρ}
    (nodup : (rows.map key).Nodup) :
    rows.find? (fun s => key s = k) = some r ↔ r ∈ rows ∧ key r = k := by
  constructor
  · intro found
    have holds := List.find?_some found
    simp only [decide_eq_true_eq] at holds
    exact ⟨List.mem_of_find?_eq_some found, holds⟩
  · rintro ⟨mem, rfl⟩
    have alone := filter_key_of_nodup nodup mem
    rw [← List.head?_filter, alone, List.head?_cons]

/-- Rows in insertion order under a UNIQUE constraint on `key`. -/
@[ext] structure Table (ρ : Type) {κ : Type} (key : ρ → κ) where
  rows : List ρ
  unique : (rows.map key).Nodup

variable {ρ κ : Type} {key : ρ → κ}

namespace Table

def empty : Table ρ key := ⟨[], List.nodup_nil⟩

def keys (t : Table ρ key) : List κ := t.rows.map key

def delete (t : Table ρ key) (p : ρ → Bool) : Table ρ key where
  rows := t.rows.filter fun r => !p r
  unique := t.unique.sublist (List.filter_sublist.map key)

/-- `UPDATE ... SET f` for an update of columns outside the key. -/
def update (t : Table ρ key) (f : ρ → ρ) (keeps : ∀ r, key (f r) = key r) : Table ρ key where
  rows := t.rows.map f
  unique := by
    have same : key ∘ f = key := funext keeps
    rw [List.map_map, same]
    exact t.unique

@[simp] theorem empty_rows : (empty : Table ρ key).rows = [] := rfl

@[simp] theorem delete_rows (t : Table ρ key) (p : ρ → Bool) :
    (t.delete p).rows = t.rows.filter fun r => !p r := rfl

theorem mem_keys {t : Table ρ key} {r : ρ} (mem : r ∈ t.rows) : key r ∈ t.keys :=
  List.mem_map.mpr ⟨r, mem, rfl⟩

variable [DecidableEq κ]

def select (t : Table ρ key) (k : κ) : List ρ := t.rows.filter fun r => key r = k

theorem select_of_mem {t : Table ρ key} {r : ρ} (mem : r ∈ t.rows) :
    t.select (key r) = [r] :=
  filter_key_of_nodup t.unique mem

theorem find?_key_eq_some {t : Table ρ key} {k : κ} {r : ρ} :
    t.rows.find? (fun s => key s = k) = some r ↔ r ∈ t.rows ∧ key r = k :=
  find?_key_of_nodup t.unique

def insert (t : Table ρ key) (r : ρ) : Except SqlError (Table ρ key) :=
  if fresh : key r ∈ t.keys then .error .uniqueViolation
  else .ok ⟨t.rows ++ [r], by
    rw [List.map_append, List.map_singleton]
    exact List.nodup_append.mpr ⟨t.unique, List.nodup_singleton _, by
      rintro a ha b hb rfl
      exact fresh (List.mem_singleton.mp hb ▸ ha)⟩⟩

def insertAll (t : Table ρ key) : List ρ → Except SqlError (Table ρ key)
  | [] => .ok t
  | r :: rs => (t.insert r).bind fun u => u.insertAll rs

theorem insert_ok {t : Table ρ key} {r : ρ} (fresh : key r ∉ t.keys) :
    ∃ u, t.insert r = .ok u ∧ u.rows = t.rows ++ [r] := by
  simp only [insert, dif_neg fresh]
  exact ⟨_, rfl, rfl⟩

theorem insert_taken {t : Table ρ key} {r : ρ} (taken : key r ∈ t.keys) :
    t.insert r = .error .uniqueViolation := dif_pos taken

theorem insert_rows {t u : Table ρ key} {r : ρ} (h : t.insert r = .ok u) :
    key r ∉ t.keys ∧ u.rows = t.rows ++ [r] := by
  by_cases taken : key r ∈ t.keys
  · rw [insert_taken taken] at h
    cases h
  · obtain ⟨v, inserted, rows⟩ := insert_ok taken
    rw [inserted] at h
    cases h
    exact ⟨taken, rows⟩

theorem insertAll_rows {t u : Table ρ key} {rs : List ρ} (h : t.insertAll rs = .ok u) :
    (∀ r ∈ rs, key r ∉ t.keys) ∧ u.rows = t.rows ++ rs := by
  induction rs generalizing t with
  | nil =>
      cases h
      simp
  | cons r rs ih =>
      simp only [insertAll] at h
      cases inserted : t.insert r with
      | error e =>
          rw [inserted] at h
          cases h
      | ok v =>
          rw [inserted] at h
          obtain ⟨fresh, rows⟩ := insert_rows inserted
          obtain ⟨rest, stored⟩ := ih h
          constructor
          · intro s hs
            rcases List.mem_cons.mp hs with rfl | hs
            · exact fresh
            · intro taken
              apply rest s hs
              rw [keys, rows, List.map_append]
              exact List.mem_append_left _ taken
          · rw [stored, rows, List.append_assoc, List.singleton_append]

theorem insertAll_ok {t : Table ρ key} {rs : List ρ} (fresh : ∀ r ∈ rs, key r ∉ t.keys)
    (distinct : (rs.map key).Nodup) : ∃ u, t.insertAll rs = .ok u ∧ u.rows = t.rows ++ rs := by
  induction rs generalizing t with
  | nil => exact ⟨t, rfl, by simp⟩
  | cons r rs ih =>
      simp only [List.map_cons, List.nodup_cons] at distinct
      obtain ⟨v, inserted, rows⟩ := insert_ok (fresh r List.mem_cons_self)
      have rest : ∀ s ∈ rs, key s ∉ v.keys := by
        intro s hs taken
        rw [keys, rows, List.map_append, List.mem_append] at taken
        rcases taken with old | new
        · exact fresh s (List.mem_cons_of_mem _ hs) old
        · have equal : key s = key r := by simpa using new
          exact distinct.1 (equal ▸ List.mem_map.mpr ⟨s, hs, rfl⟩)
      obtain ⟨u, stored, all⟩ := ih rest distinct.2
      refine ⟨u, ?_, ?_⟩
      · simp only [insertAll, inserted]
        exact stored
      · rw [all, rows, List.append_assoc, List.singleton_append]

/-- `INSERT ... ON CONFLICT (key) DO UPDATE`: the stored row is merged with the excluded one. -/
def upsert (t : Table ρ key) (merge : ρ → ρ → ρ) (keeps : ∀ old new, key (merge old new) = key old)
    (r : ρ) : Table ρ key :=
  if taken : key r ∈ t.keys then
    t.update (fun s => if key s = key r then merge s r else s) (by
      intro s
      split
      · exact keeps s r
      · rfl)
  else ⟨t.rows ++ [r], by
    rw [List.map_append, List.map_singleton]
    exact List.nodup_append.mpr ⟨t.unique, List.nodup_singleton _, by
      rintro a ha b hb rfl
      exact taken (List.mem_singleton.mp hb ▸ ha)⟩⟩

section Upsert

variable {merge : ρ → ρ → ρ} {keeps : ∀ old new, key (merge old new) = key old}

theorem upsert_fresh {t : Table ρ key} {r : ρ} (fresh : key r ∉ t.keys) :
    (t.upsert merge keeps r).rows = t.rows ++ [r] := by
  rw [upsert, dif_neg fresh]

theorem upsert_taken {t : Table ρ key} {r : ρ} (taken : key r ∈ t.keys) :
    (t.upsert merge keeps r).rows =
      t.rows.map fun s => if key s = key r then merge s r else s := by
  rw [upsert, dif_pos taken]
  rfl

theorem mem_keys_upsert {t : Table ρ key} {r : ρ} {k : κ} :
    k ∈ (t.upsert merge keeps r).keys ↔ k ∈ t.keys ∨ k = key r := by
  by_cases taken : key r ∈ t.keys
  · have same : (t.upsert merge keeps r).keys = t.keys := by
      rw [keys, upsert_taken taken, List.map_map, keys]
      apply List.map_congr_left
      intro s _
      simp only [Function.comp_apply]
      split
      · exact keeps s r
      · rfl
    rw [same]
    constructor
    · exact Or.inl
    · intro given
      rcases given with old | rfl
      · exact old
      · exact taken
  · rw [keys, upsert_fresh taken, List.map_append, List.mem_append, List.map_singleton,
      List.mem_singleton, keys]

theorem mem_upsert_of_ne {t : Table ρ key} {r s : ρ} (other : key s ≠ key r) :
    s ∈ (t.upsert merge keeps r).rows ↔ s ∈ t.rows := by
  by_cases taken : key r ∈ t.keys
  · rw [upsert_taken taken, List.mem_map]
    constructor
    · intro given
      obtain ⟨a, ha, equal⟩ := given
      by_cases hit : key a = key r
      · rw [if_pos hit] at equal
        exact (other (by rw [← equal, keeps a r, hit])).elim
      · rw [if_neg hit] at equal
        exact equal ▸ ha
    · intro hs
      exact ⟨s, hs, if_neg other⟩
  · rw [upsert_fresh taken, List.mem_append, List.mem_singleton]
    constructor
    · intro given
      rcases given with old | rfl
      · exact old
      · exact (other rfl).elim
    · exact Or.inl

theorem mem_upsert_here (t : Table ρ key) (r : ρ) :
    ∃ s ∈ (t.upsert merge keeps r).rows, key s = key r ∧ (s = r ∨ ∃ old, s = merge old r) := by
  by_cases taken : key r ∈ t.keys
  · obtain ⟨old, stored, hit⟩ := List.mem_map.mp taken
    refine ⟨merge old r, ?_, (keeps old r).trans hit, Or.inr ⟨old, rfl⟩⟩
    rw [upsert_taken taken]
    exact List.mem_map.mpr ⟨old, stored, if_pos hit⟩
  · refine ⟨r, ?_, rfl, Or.inl rfl⟩
    rw [upsert_fresh taken]
    exact List.mem_append_right _ List.mem_cons_self

theorem mem_upsert_replace (replaces : ∀ old new, key old = key new → merge old new = new)
    {t : Table ρ key} {r s : ρ} :
    s ∈ (t.upsert merge keeps r).rows ↔ s = r ∨ (s ∈ t.rows ∧ key s ≠ key r) := by
  by_cases same : key s = key r
  · have reduced : (s = r ∨ (s ∈ t.rows ∧ key s ≠ key r)) ↔ s = r := by simp [same]
    rw [reduced]
    by_cases taken : key r ∈ t.keys
    · rw [upsert_taken taken, List.mem_map]
      constructor
      · intro given
        obtain ⟨a, -, equal⟩ := given
        by_cases hit : key a = key r
        · rw [if_pos hit, replaces a r hit] at equal
          exact equal.symm
        · rw [if_neg hit] at equal
          exact (hit (equal ▸ same)).elim
      · rintro rfl
        obtain ⟨a, ha, hit⟩ := List.mem_map.mp taken
        exact ⟨a, ha, by rw [if_pos hit, replaces a s hit]⟩
    · rw [upsert_fresh taken, List.mem_append, List.mem_singleton]
      exact ⟨fun stored => stored.resolve_left fun old => taken (same ▸ mem_keys old), Or.inr⟩
  · rw [mem_upsert_of_ne same]
    constructor
    · exact fun stored => Or.inr ⟨stored, same⟩
    · intro given
      rcases given with rfl | ⟨stored, -⟩
      · exact absurd rfl same
      · exact stored

/-- One `INSERT ... SELECT ... ON CONFLICT DO UPDATE` statement: a key proposed twice by the same
statement is refused. -/
def upsertAll (t : Table ρ key) (merge : ρ → ρ → ρ)
    (keeps : ∀ old new, key (merge old new) = key old) (rs : List ρ) :
    Except SqlError (Table ρ key) :=
  if (rs.map key).Nodup then .ok (rs.foldl (fun u r => u.upsert merge keeps r) t)
  else .error .cardinalityViolation

theorem mem_keys_foldl_upsert {t : Table ρ key} {rs : List ρ} {k : κ} :
    k ∈ (rs.foldl (fun u r => u.upsert merge keeps r) t).keys ↔ k ∈ t.keys ∨ k ∈ rs.map key := by
  induction rs generalizing t with
  | nil => simp
  | cons r rs ih =>
      rw [List.foldl_cons, ih, mem_keys_upsert, List.map_cons, List.mem_cons, or_assoc]

theorem upsertAll_ok (t : Table ρ key) (merge : ρ → ρ → ρ)
    (keeps : ∀ old new, key (merge old new) = key old) {rs : List ρ}
    (distinct : (rs.map key).Nodup) :
    ∃ u, t.upsertAll merge keeps rs = .ok u ∧ ∀ k, k ∈ u.keys ↔ k ∈ t.keys ∨ k ∈ rs.map key :=
  ⟨_, if_pos distinct, fun _ => mem_keys_foldl_upsert⟩

theorem upsertAll_keys {t u : Table ρ key} {rs : List ρ}
    (h : t.upsertAll merge keeps rs = .ok u) : ∀ k, k ∈ u.keys ↔ k ∈ t.keys ∨ k ∈ rs.map key := by
  by_cases distinct : (rs.map key).Nodup
  · rw [upsertAll, if_pos distinct] at h
    cases h
    exact fun _ => mem_keys_foldl_upsert
  · rw [upsertAll, if_neg distinct] at h
    cases h

theorem mem_upsertAll_replace (replaces : ∀ old new, key old = key new → merge old new = new)
    {t u : Table ρ key} {rs : List ρ} (h : t.upsertAll merge keeps rs = .ok u) {s : ρ} :
    s ∈ u.rows ↔ s ∈ rs ∨ (s ∈ t.rows ∧ key s ∉ rs.map key) := by
  by_cases distinct : (rs.map key).Nodup
  · rw [upsertAll, if_pos distinct] at h
    cases h
    induction rs generalizing t with
    | nil => simp
    | cons r rs ih =>
        simp only [List.map_cons, List.nodup_cons] at distinct
        rw [List.foldl_cons, ih distinct.2, mem_upsert_replace replaces, List.mem_cons,
          List.map_cons, List.mem_cons, not_or]
        constructor
        · intro given
          rcases given with later | ⟨rfl | ⟨stored, other⟩, out⟩
          · exact Or.inl (Or.inr later)
          · exact Or.inl (Or.inl rfl)
          · exact Or.inr ⟨stored, other, out⟩
        · intro given
          rcases given with (rfl | later) | ⟨stored, other, out⟩
          · exact Or.inr ⟨Or.inl rfl, distinct.1⟩
          · exact Or.inl later
          · exact Or.inr ⟨Or.inr ⟨stored, other⟩, out⟩
  · rw [upsertAll, if_neg distinct] at h
    cases h

end Upsert

end Table

end Scand.Foundation.KeyedTable
