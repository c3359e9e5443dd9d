/- path: Scand/Store/ConnectionPool
   layer: code model and results
   digest: ConnectionPool and its leases as atomic steps: every connection is free or held by one lease,
   whatever the leases are moved over. -/

import Scand.Foundation.Interleaving
import Mathlib.Data.List.Nodup
import Mathlib.Logic.Function.Basic

set_option autoImplicit false
set_option relaxedAutoImplicit false

namespace Scand.Store.ConnectionPool

open Scand.Foundation.Interleaving

/-- A connection, named by the pool that made it and its place there. -/
structure Conn where
  home : Nat
  index : Nat
  deriving DecidableEq

/-- What goes on with a lease object: nothing, a member function that runs in an operation, an
`operator=` that has handed the connection of its object back and is about to overwrite it, or the end
of its lifetime. -/
inductive Phase
  | idle | used (op : Nat) | returned (op : Nat) | dead
  deriving DecidableEq

/-- The members of `Lease`; the pool of `pool_` goes by its number. -/
structure Lease where
  conn : Option Conn := none
  pool : Option Nat := none
  phase : Phase := .idle
  deriving DecidableEq

/-- The free list of every pool, and the lease objects in the order in which they were made. -/
structure Pools where
  free : Nat → List Conn
  leases : List Lease := []

/-- Where an operation stands: each place is the next atomic step. -/
inductive Pc
  | acquire (pool : Nat)
  | construct
  | moveConstruct (src : Nat)
  | moveAssign (dst src : Nat)
  | destroy (lease : Nat)
  -- inside operator=, behind the release
  | released (dst src : Nat)
  -- behind the move of conn_, in the constructor as in operator=
  | connMoved (dst src : Nat)
  | done
  deriving DecidableEq

section Code

def built (size : Nat → Nat) (pool : Nat) : List Conn := (List.range (size pool)).map (Conn.mk pool)

/-- `if (pool_) pool_->release(conn_)`; the lock of `release` makes it one step. -/
def release (free : Nat → List Conn) (lease : Lease) : Nat → List Conn :=
  match lease.pool, lease.conn with
  | some pool, some c => Function.update free pool (free pool ++ [c])
  | _, _ => free

def setBoth (leases : List Lease) (dst : Nat) (t : Lease) (src : Nat) (o : Lease) : List Lease :=
  (leases.set dst t).set src o

/-- An operation begins only where no other one works on its leases; a wait is no step. -/
def step (op : Nat) (s : Pools) (pc : Pc) (_ : Unit) : Option (Pools × Pc) :=
  match pc with
  | .acquire pool =>
      match s.free pool with
      | [] => none
      | c :: rest => some ({
          free := Function.update s.free pool rest
          leases := s.leases ++ [{ conn := some c, pool := some pool }] }, .done)
  | .construct => some ({ s with leases := s.leases ++ [{}] }, .done)
  | .moveConstruct src =>
      match s.leases[src]? with
      | none => none
      | some o =>
          if o.phase = .idle then
            let dst := s.leases.length
            some ({ s with
              leases := setBoth (s.leases ++ [{}]) dst { conn := o.conn, phase := .used op } src
                { o with conn := none, phase := .used op } }, .connMoved dst src)
          else none
  | .moveAssign dst src =>
      match s.leases[dst]?, s.leases[src]? with
      | some t, some o =>
          if t.phase = .idle ∧ o.phase = .idle then
            if dst = src then some (s, .done)
            else some ({
              free := release s.free t
              leases := setBoth s.leases dst { t with phase := .returned op } src
                { o with phase := .used op } }, .released dst src)
          else none
      | _, _ => none
  | .released dst src =>
      match s.leases[dst]?, s.leases[src]? with
      | some t, some o => some ({ s with
          leases := setBoth s.leases dst { t with conn := o.conn, phase := .used op } src
            { o with conn := none } }, .connMoved dst src)
      | _, _ => none
  | .connMoved dst src =>
      match s.leases[dst]?, s.leases[src]? with
      | some t, some o => some ({ s with
          leases := setBoth s.leases dst { t with pool := o.pool, phase := .idle } src
            { o with pool := none, phase := .idle } }, .done)
      | _, _ => none
  | .destroy k =>
      match s.leases[k]? with
      | none => none
      | some t =>
          if t.phase = .idle then
            some ({ free := release s.free t, leases := s.leases.set k { t with phase := .dead } }, .done)
          else none
  | .done => none

def isCall : Pc → Bool
  | .acquire _ | .construct | .moveConstruct _ | .moveAssign _ _ | .destroy _ => true
  | _ => false

def connectionPool : Machine Pools Pc Unit where
  entry := isCall
  step := step

end Code

/-- The lease holds the connection. Behind the release in `operator=` it has only the copy that the next
statement overwrites. -/
def holds (c : Conn) (lease : Lease) : Bool :=
  match lease.phase with
  | .idle | .used _ => lease.conn = some c
  | .returned _ | .dead => false

def Holds (s : Pools) (k : Nat) (c : Conn) : Prop := ∃ lease, s.leases[k]? = some lease ∧ holds c lease = true

/-- Every connection is free once and held by nobody, or held once and not free. -/
structure Owned (size : Nat → Nat) (s : Pools) : Prop where
  each : ∀ pool, ∀ c ∈ built size pool,
    ((s.free pool).count c = 1 ∧ ∀ k, ¬ Holds s k c) ∨ (c ∉ s.free pool ∧ ∃! k, Holds s k c)
  own : ∀ pool, ∀ c ∈ s.free pool, c ∈ built size pool
  returned : (∀ lease ∈ s.leases, lease.phase = .dead) → ∀ pool, (s.free pool).Perm (built size pool)

inductive Moves (op : Nat) (s : Pools) : Pc → Pools → Pc → Prop
  | acquired (pool : Nat) (c : Conn) (rest : List Conn) : s.free pool = c :: rest →
      Moves op s (.acquire pool) ⟨Function.update s.free pool rest,
        s.leases ++ [{ conn := some c, pool := some pool }]⟩ .done
  | constructed : Moves op s .construct { s with leases := s.leases ++ [{}] } .done
  | moveConstructed (src : Nat) (o : Lease) : s.leases[src]? = some o → o.phase = .idle →
      Moves op s (.moveConstruct src) { s with
        leases := setBoth (s.leases ++ [{}]) s.leases.length { conn := o.conn, phase := .used op } src
          { o with conn := none, phase := .used op } } (.connMoved s.leases.length src)
  | selfMoved (k : Nat) : Moves op s (.moveAssign k k) s .done
  | released (dst src : Nat) (t o : Lease) : s.leases[dst]? = some t → s.leases[src]? = some o →
      t.phase = .idle → o.phase = .idle → dst ≠ src →
      Moves op s (.moveAssign dst src) ⟨release s.free t,
        setBoth s.leases dst { t with phase := .returned op } src { o with phase := .used op }⟩
        (.released dst src)
  | connMoved (dst src : Nat) (t o : Lease) : s.leases[dst]? = some t → s.leases[src]? = some o →
      Moves op s (.released dst src) { s with
        leases := setBoth s.leases dst { t with conn := o.conn, phase := .used op } src
          { o with conn := none } } (.connMoved dst src)
  | poolMoved (dst src : Nat) (t o : Lease) : s.leases[dst]? = some t → s.leases[src]? = some o →
      Moves op s (.connMoved dst src) { s with
        leases := setBoth s.leases dst { t with pool := o.pool, phase := .idle } src
          { o with pool := none, phase := .idle } } .done
  | destroyed (k : Nat) (t : Lease) : s.leases[k]? = some t → t.phase = .idle →
      Moves op s (.destroy k) ⟨release s.free t, s.leases.set k { t with phase := .dead }⟩ .done

theorem moves_of_step {op : Nat} {s s' : Pools} {pc pc' : Pc} {r : Unit}
    (stepped : connectionPool.step op s pc r = some (s', pc')) : Moves op s pc s' pc' := by
  have moved : step op s pc r = some (s', pc') := stepped
  cases pc with
  | acquire pool =>
      rw [step] at moved
      split at moved
      · cases moved
      · rename_i c rest first
        cases moved
        exact .acquired pool c rest first
  | construct =>
      cases moved
      exact .constructed
  | moveConstruct src =>
      rw [step] at moved
      split at moved
      · cases moved
      · rename_i o at_src
        split at moved
        · rename_i idle
          cases moved
          exact .moveConstructed src o at_src idle
        · cases moved
  | moveAssign dst src =>
      rw [step] at moved
      split at moved
      · rename_i t o at_dst at_src
        split at moved
        · rename_i idle
          split at moved
          · rename_i same
            cases moved
            cases same
            exact .selfMoved dst
          · rename_i apart
            cases moved
            exact .released dst src t o at_dst at_src idle.1 idle.2 apart
        · cases moved
      · cases moved
  | released dst src =>
      rw [step] at moved
      split at moved
      · rename_i t o at_dst at_src
        cases moved
        exact .connMoved dst src t o at_dst at_src
      · cases moved
  | connMoved dst src =>
      rw [step] at moved
      split at moved
      · rename_i t o at_dst at_src
        cases moved
        exact .poolMoved dst src t o at_dst at_src
      · cases moved
  | destroy k =>
      rw [step] at moved
      split at moved
      · cases moved
      · rename_i t at_k
        split at moved
        · rename_i idle
          cases moved
          exact .destroyed k t at_k idle
        · cases moved
  | done => cases moved

section Lists

variable {leases : List Lease} {dst src : Nat} {t t' o o' : Lease}

theorem setBoth_dst (at_dst : leases[dst]? = some t) (apart : dst ≠ src) :
    (setBoth leases dst t' src o')[dst]? = some t' := by
  rw [setBoth, List.getElem?_set_ne apart.symm]
  exact getElem?_set_here at_dst

theorem setBoth_src (at_src : leases[src]? = some o) (apart : dst ≠ src) :
    (setBoth leases dst t' src o')[src]? = some o' := by
  have kept : (leases.set dst t')[src]? = some o := by rwa [List.getElem?_set_ne apart]
  exact getElem?_set_here kept

theorem setBoth_other {k : Nat} (not_dst : dst ≠ k) (not_src : src ≠ k) :
    (setBoth leases dst t' src o')[k]? = leases[k]? := by
  rw [setBoth, List.getElem?_set_ne not_src, List.getElem?_set_ne not_dst]

theorem mem_setBoth {lease : Lease} (mem : lease ∈ setBoth leases dst t' src o') :
    lease = t' ∨ lease = o' ∨ lease ∈ leases := by
  rcases List.mem_or_eq_of_mem_set mem with mem | same
  · rcases List.mem_or_eq_of_mem_set mem with mem | same
    · exact Or.inr (Or.inr mem)
    · exact Or.inl same
  · exact Or.inr (Or.inl same)

theorem countP_setBoth (f : Lease → Bool) (t' o' : Lease) (at_dst : leases[dst]? = some t)
    (at_src : leases[src]? = some o) (apart : dst ≠ src) :
    (setBoth leases dst t' src o').countP f + ((f t).toNat + (f o).toNat) =
      leases.countP f + ((f t').toNat + (f o').toNat) := by
  have kept : (leases.set dst t')[src]? = some o := by rwa [List.getElem?_set_ne apart]
  have first := countP_set_add (f := f) (q := t') at_dst
  have second := countP_set_add (f := f) (q := o') kept
  rw [setBoth]
  omega

end Lists

/-- A lease at rest has a connection together with the pool that made it. -/
def Paired (lease : Lease) : Prop := lease.pool = lease.conn.map Conn.home

section Release

variable {free : Nat → List Conn} {lease : Lease}

theorem release_cases (free : Nat → List Conn) (lease : Lease) :
    (∃ pool c, lease.pool = some pool ∧ lease.conn = some c ∧
      release free lease = Function.update free pool (free pool ++ [c])) ∨
    ((lease.pool = none ∨ lease.conn = none) ∧ release free lease = free) := by
  cases in_pool : lease.pool with
  | none => exact Or.inr ⟨Or.inl rfl, by simp [release, in_pool]⟩
  | some pool =>
      cases own : lease.conn with
      | none => exact Or.inr ⟨Or.inr rfl, by simp [release, own]⟩
      | some c => exact Or.inl ⟨pool, c, rfl, rfl, by simp [release, in_pool, own]⟩

theorem mem_release {pool : Nat} {c : Conn} (mem : c ∈ release free lease pool) :
    c ∈ free pool ∨ lease.pool = some pool ∧ lease.conn = some c := by
  rcases release_cases free lease with ⟨home, given, in_home, own, put⟩ | ⟨-, kept⟩
  · rw [put] at mem
    by_cases here : pool = home
    · subst here
      rw [Function.update_self] at mem
      rcases List.mem_append.mp mem with old | new
      · exact Or.inl old
      · exact Or.inr ⟨in_home, by rw [own, List.mem_singleton.mp new]⟩
    · rw [Function.update_of_ne here] at mem
      exact Or.inl mem
  · rw [kept] at mem
    exact Or.inl mem

theorem count_release (paired : Paired lease) (c : Conn) :
    (release free lease c.home).count c =
      (free c.home).count c + (decide (lease.conn = some c)).toNat := by
  rw [Paired] at paired
  rcases release_cases free lease with ⟨pool, own, in_pool, given, put⟩ | ⟨empty, kept⟩
  · rw [in_pool, given, Option.map_some, Option.some.injEq] at paired
    subst paired
    rw [put, given]
    by_cases same : own = c
    · subst same
      rw [Function.update_self, List.count_append, List.count_singleton_self, decide_eq_true rfl]
      rfl
    · have other : (decide (some own = some c)).toNat = 0 := by simp [same]
      rw [other]
      by_cases here : c.home = own.home
      · have apart : [own].count c = 0 := by simp [same]
        rw [here, Function.update_self, List.count_append, apart]
      · rw [Function.update_of_ne here, Nat.add_zero]
  · have no_conn : lease.conn = none := by
      rcases empty with no_pool | no_conn
      · rw [no_pool] at paired
        exact Option.map_eq_none_iff.mp paired.symm
      · exact no_conn
    rw [kept, no_conn]
    rfl

theorem count_taken {pool : Nat} {first : Conn} {rest : List Conn} (taken : free pool = first :: rest)
    (home : first.home = pool) (c : Conn) :
    (Function.update free pool rest c.home).count c + (if first = c then 1 else 0) =
      (free c.home).count c := by
  by_cases there : c.home = pool
  · subst there
    rw [Function.update_self, taken, List.count_cons]
    simp
  · have apart : first ≠ c := by
      rintro rfl
      exact there home
    rw [Function.update_of_ne there, if_neg apart, Nat.add_zero]

end Release

/-- What an operation knows about the leases that it is at work on. -/
def Local (op : Nat) (leases : List Lease) : Pc → Prop
  | .released dst src => dst ≠ src ∧ ∃ t o, leases[dst]? = some t ∧ leases[src]? = some o ∧
      t.phase = .returned op ∧ o.phase = .used op ∧ Paired o
  | .connMoved dst src => dst ≠ src ∧ ∃ t o, leases[dst]? = some t ∧ leases[src]? = some o ∧
      t.phase = .used op ∧ o.phase = .used op ∧ o.conn = none ∧ o.pool = t.conn.map Conn.home
  | _ => True

/-- What holds of the pools, of the leases and of the operations on them. -/
structure Sound (size : Nat → Nat) (c : Config Pools Pc) : Prop where
  homes : ∀ pool, ∀ conn ∈ c.shared.free pool, conn.home = pool
  counted : ∀ conn : Conn,
    (c.shared.free conn.home).count conn + c.shared.leases.countP (holds conn) =
      if conn.index < size conn.home then 1 else 0
  paired : ∀ lease ∈ c.shared.leases, lease.phase = .idle → Paired lease
  locals : ∀ i p, c.procs[i]? = some p → Local i c.shared.leases p

section Preserved

variable {size : Nat → Nat} {c : Config Pools Pc} {op : Nat} {p q : Pc} {s : Pools}

theorem Sound.homes_step (sound : Sound size c) (moves : Moves op c.shared p s q) :
    ∀ pool, ∀ conn ∈ s.free pool, conn.home = pool := by
  have homes := sound.homes
  have put_back : ∀ t ∈ c.shared.leases, t.phase = .idle →
      ∀ pool, ∀ conn ∈ release c.shared.free t pool, conn.home = pool := by
    intro t mem idle pool conn in_free
    rcases mem_release in_free with old | ⟨in_pool, own⟩
    · exact homes pool conn old
    · have paired : t.pool = t.conn.map Conn.home := sound.paired t mem idle
      rw [in_pool, own, Option.map_some, Option.some.injEq] at paired
      exact paired.symm
  cases moves with
  | acquired pool first rest taken =>
      intro other conn mem
      by_cases here : other = pool
      · subst here
        have in_rest : conn ∈ rest := by simpa using mem
        exact homes other conn (taken ▸ List.mem_cons_of_mem first in_rest)
      · have old : conn ∈ c.shared.free other := by simpa [Function.update_of_ne here] using mem
        exact homes other conn old
  | released dst src t o at_dst _ idle _ _ => exact put_back t (List.mem_of_getElem? at_dst) idle
  | destroyed k t at_k idle => exact put_back t (List.mem_of_getElem? at_k) idle
  | _ => exact homes

theorem Sound.paired_step (sound : Sound size c) (at_op : c.procs[op]? = some p)
    (moves : Moves op c.shared p s q) : ∀ lease ∈ s.leases, lease.phase = .idle → Paired lease := by
  have paired := sound.paired
  have here := sound.locals op p at_op
  intro lease mem idle
  cases moves with
  | acquired pool first rest taken =>
      rcases List.mem_append.mp mem with old | new
      · exact paired lease old idle
      · have home := sound.homes pool first (taken ▸ List.mem_cons_self)
        rw [List.mem_singleton.mp new, Paired, Option.map_some, home]
  | constructed =>
      rcases List.mem_append.mp mem with old | new
      · exact paired lease old idle
      · rw [List.mem_singleton.mp new]
        rfl
  | moveConstructed src o at_src _ =>
      rcases mem_setBoth mem with rfl | rfl | old
      · cases idle
      · cases idle
      · rcases List.mem_append.mp old with old | new
        · exact paired lease old idle
        · rw [List.mem_singleton.mp new]
          rfl
  | selfMoved k => exact paired lease mem idle
  | released dst src t o at_dst at_src _ _ _ =>
      rcases mem_setBoth mem with rfl | rfl | old
      · cases idle
      · cases idle
      · exact paired lease old idle
  | connMoved dst src t o at_dst at_src =>
      obtain ⟨-, _, o', -, at_src', -, used, -⟩ := here
      obtain rfl : o = o' := Option.some.inj (at_src.symm.trans at_src')
      rcases mem_setBoth mem with rfl | rfl | old
      · cases idle
      · cases used.symm.trans idle
      · exact paired lease old idle
  | poolMoved dst src t o at_dst at_src =>
      obtain ⟨-, t', o', at_dst', at_src', -, -, empty, pool⟩ := here
      obtain rfl : t = t' := Option.some.inj (at_dst.symm.trans at_dst')
      obtain rfl : o = o' := Option.some.inj (at_src.symm.trans at_src')
      rcases mem_setBoth mem with rfl | rfl | old
      · exact pool
      · rw [Paired, empty]
        rfl
      · exact paired lease old idle
  | destroyed k t at_k _ =>
      rcases List.mem_or_eq_of_mem_set mem with old | rfl
      · exact paired lease old idle
      · cases idle

theorem Sound.counted_step (sound : Sound size c) (at_op : c.procs[op]? = some p)
    (moves : Moves op c.shared p s q) (conn : Conn) :
    (s.free conn.home).count conn + s.leases.countP (holds conn) =
      (c.shared.free conn.home).count conn + c.shared.leases.countP (holds conn) := by
  have here := sound.locals op p at_op
  have put_back : ∀ (k : Nat) (t : Lease), c.shared.leases[k]? = some t → t.phase = .idle →
      (release c.shared.free t conn.home).count conn =
        (c.shared.free conn.home).count conn + (holds conn t).toNat := by
    intro k t at_k idle
    have paired := sound.paired t (List.mem_of_getElem? at_k) idle
    have held : holds conn t = decide (t.conn = some conn) := by rw [holds, idle]
    rw [count_release paired, held]
  have one_more (new : Lease) : (c.shared.leases ++ [new]).countP (holds conn) =
      c.shared.leases.countP (holds conn) + (holds conn new).toNat := countP_snoc
  cases moves with
  | acquired pool first rest taken =>
      have home := sound.homes pool first (taken ▸ List.mem_cons_self)
      have added := one_more { conn := some first, pool := some pool }
      have held : (holds conn { conn := some first, pool := some pool }).toNat =
          if first = conn then 1 else 0 := by
        by_cases same : first = conn <;> simp [holds, same]
      have left := count_taken taken home conn
      rw [held] at added
      show ((Function.update c.shared.free pool rest) conn.home).count conn +
        (c.shared.leases ++ [_]).countP (holds conn) = _
      omega
  | constructed =>
      have added := one_more {}
      exact congrArg _ added
  | moveConstructed src o at_src idle =>
      have apart : c.shared.leases.length ≠ src := by
        have bound := (List.getElem?_eq_some_iff.mp at_src).1
        omega
      have fresh : (c.shared.leases ++ [({} : Lease)])[c.shared.leases.length]? = some {} :=
        List.getElem?_concat_length
      have traded := countP_setBoth (holds conn) { conn := o.conn, phase := .used op }
        { o with conn := none, phase := .used op } fresh (getElem?_snoc_kept at_src) apart
      have added := one_more {}
      have passed : (holds conn o).toNat = (holds conn { conn := o.conn, phase := .used op }).toNat := by
        rw [holds, holds, idle]
      have emptied : (holds conn { o with conn := none, phase := .used op }).toNat = 0 := rfl
      have before : (holds conn {}).toNat = 0 := rfl
      show (c.shared.free conn.home).count conn + (setBoth _ _ _ _ _).countP (holds conn) = _
      omega
  | selfMoved k => rfl
  | released dst src t o at_dst at_src idle idle' apart =>
      have traded := countP_setBoth (holds conn) { t with phase := .returned op }
        { o with phase := .used op } at_dst at_src apart
      have given := put_back dst t at_dst idle
      have passed : (holds conn { o with phase := .used op }).toNat = (holds conn o).toNat := by
        rw [holds, holds, idle']
      have gone : (holds conn { t with phase := .returned op }).toNat = 0 := rfl
      show (release c.shared.free t conn.home).count conn + (setBoth _ _ _ _ _).countP (holds conn) = _
      omega
  | connMoved dst src t o at_dst at_src =>
      obtain ⟨apart, t', o', at_dst', at_src', returned, used, -⟩ := here
      obtain rfl : t = t' := Option.some.inj (at_dst.symm.trans at_dst')
      obtain rfl : o = o' := Option.some.inj (at_src.symm.trans at_src')
      have traded := countP_setBoth (holds conn) { t with conn := o.conn, phase := .used op }
        { o with conn := none } at_dst at_src apart
      have gone : (holds conn t).toNat = 0 := by rw [holds, returned]; rfl
      have passed : (holds conn { t with conn := o.conn, phase := .used op }).toNat =
          (holds conn o).toNat := by
        rw [holds, holds, used]
      have emptied : (holds conn { o with conn := none }).toNat = 0 := by
        rw [holds, used]
        rfl
      show (c.shared.free conn.home).count conn + (setBoth _ _ _ _ _).countP (holds conn) = _
      omega
  | poolMoved dst src t o at_dst at_src =>
      obtain ⟨apart, t', o', at_dst', at_src', used, used', -, -⟩ := here
      obtain rfl : t = t' := Option.some.inj (at_dst.symm.trans at_dst')
      obtain rfl : o = o' := Option.some.inj (at_src.symm.trans at_src')
      have traded := countP_setBoth (holds conn) { t with pool := o.pool, phase := .idle }
        { o with pool := none, phase := .idle } at_dst at_src apart
      have kept : (holds conn { t with pool := o.pool, phase := .idle }).toNat = (holds conn t).toNat := by
        rw [holds, holds, used]
      have kept' : (holds conn { o with pool := none, phase := .idle }).toNat = (holds conn o).toNat := by
        rw [holds, holds, used']
      show (c.shared.free conn.home).count conn + (setBoth _ _ _ _ _).countP (holds conn) = _
      omega
  | destroyed k t at_k idle =>
      have traded := countP_set_add (f := holds conn) (q := { t with phase := .dead }) at_k
      have given := put_back k t at_k idle
      have gone : (holds conn { t with phase := .dead }).toNat = 0 := rfl
      show (release c.shared.free t conn.home).count conn +
        (c.shared.leases.set k _).countP (holds conn) = _
      omega

def Phase.owner : Phase → Option Nat
  | .used i | .returned i => some i
  | _ => none

theorem Local.frame {i : Nat} {leases leases' : List Lease} {r : Pc} (known : Local i leases r)
    (kept : ∀ (k : Nat) (lease : Lease), leases[k]? = some lease → lease.phase.owner = some i →
      leases'[k]? = some lease) : Local i leases' r := by
  cases r with
  | released dst src =>
      obtain ⟨apart, t, o, at_dst, at_src, returned, used, paired⟩ := known
      exact ⟨apart, t, o, kept dst t at_dst (by rw [returned]; rfl), kept src o at_src (by rw [used]; rfl),
        returned, used, paired⟩
  | connMoved dst src =>
      obtain ⟨apart, t, o, at_dst, at_src, used, used', rest⟩ := known
      exact ⟨apart, t, o, kept dst t at_dst (by rw [used]; rfl), kept src o at_src (by rw [used']; rfl),
        used, used', rest⟩
  | _ => trivial

theorem Sound.other_step (sound : Sound size c) (at_op : c.procs[op]? = some p)
    (moves : Moves op c.shared p s q) {i : Nat} (other : op ≠ i) (k : Nat) (lease : Lease)
    (at_k : c.shared.leases[k]? = some lease) (owner : lease.phase.owner = some i) :
    s.leases[k]? = some lease := by
  have here := sound.locals op p at_op
  have not_idle : ∀ {j : Nat} {t : Lease}, c.shared.leases[j]? = some t → t.phase = .idle → j ≠ k := by
    rintro j t at_j idle rfl
    obtain rfl : t = lease := Option.some.inj (at_j.symm.trans at_k)
    rw [idle] at owner
    cases owner
  have not_mine : ∀ {j : Nat} {t : Lease}, c.shared.leases[j]? = some t → t.phase.owner = some op → j ≠ k := by
    rintro j t at_j mine rfl
    obtain rfl : t = lease := Option.some.inj (at_j.symm.trans at_k)
    exact other (Option.some.inj (mine.symm.trans owner))
  cases moves with
  | acquired _ _ _ _ => exact getElem?_snoc_kept at_k
  | constructed => exact getElem?_snoc_kept at_k
  | moveConstructed src o at_src idle =>
      have fresh : c.shared.leases.length ≠ k := by
        have bound := (List.getElem?_eq_some_iff.mp at_k).1
        omega
      exact (setBoth_other fresh (not_idle at_src idle)).trans (getElem?_snoc_kept at_k)
  | selfMoved _ => exact at_k
  | released dst src t o at_dst at_src idle idle' _ =>
      exact (setBoth_other (not_idle at_dst idle) (not_idle at_src idle')).trans at_k
  | connMoved dst src _ _ _ _ =>
      obtain ⟨-, t, o, at_dst, at_src, returned, used, -⟩ := here
      have mine : t.phase.owner = some op := by rw [returned]; rfl
      have mine' : o.phase.owner = some op := by rw [used]; rfl
      exact (setBoth_other (not_mine at_dst mine) (not_mine at_src mine')).trans at_k
  | poolMoved dst src _ _ _ _ =>
      obtain ⟨-, t, o, at_dst, at_src, used, used', -⟩ := here
      have mine : t.phase.owner = some op := by rw [used]; rfl
      have mine' : o.phase.owner = some op := by rw [used']; rfl
      exact (setBoth_other (not_mine at_dst mine) (not_mine at_src mine')).trans at_k
  | destroyed j t at_j idle =>
      show (c.shared.leases.set j _)[k]? = some lease
      rw [List.getElem?_set_ne (not_idle at_j idle)]
      exact at_k

theorem Sound.locals_step (sound : Sound size c) (at_op : c.procs[op]? = some p)
    (moves : Moves op c.shared p s q) :
    ∀ i r, (c.procs.set op q)[i]? = some r → Local i s.leases r := by
  intro i r at_i
  rcases getElem?_set_cases at_i with ⟨rfl, rfl⟩ | ⟨other, at_i⟩
  · have here := sound.locals op p at_op
    cases moves with
    | moveConstructed src o at_src idle =>
        have apart : c.shared.leases.length ≠ src := by
          have bound := (List.getElem?_eq_some_iff.mp at_src).1
          omega
        have fresh : (c.shared.leases ++ [({} : Lease)])[c.shared.leases.length]? = some {} :=
          List.getElem?_concat_length
        exact ⟨apart, _, _, setBoth_dst fresh apart, setBoth_src (getElem?_snoc_kept at_src) apart,
          rfl, rfl, rfl, sound.paired o (List.mem_of_getElem? at_src) idle⟩
    | released dst src t o at_dst at_src _ idle apart =>
        exact ⟨apart, _, _, setBoth_dst at_dst apart, setBoth_src at_src apart, rfl, rfl,
          sound.paired o (List.mem_of_getElem? at_src) idle⟩
    | connMoved dst src t o at_dst at_src =>
        obtain ⟨apart, _, o', -, at_src', -, used, paired⟩ := here
        obtain rfl : o = o' := Option.some.inj (at_src.symm.trans at_src')
        exact ⟨apart, _, _, setBoth_dst at_dst apart, setBoth_src at_src apart, rfl, used, rfl, paired⟩
    | _ => trivial
  · exact (sound.locals i r at_i).frame (sound.other_step at_op moves other)

theorem nodup_built (size : Nat → Nat) (pool : Nat) : (built size pool).Nodup :=
  List.nodup_range.map fun _ _ same => congrArg Conn.index same

theorem mem_built {pool : Nat} {conn : Conn} :
    conn ∈ built size pool ↔ conn.home = pool ∧ conn.index < size pool := by
  rw [built, List.mem_map]
  constructor
  · rintro ⟨i, below, rfl⟩
    exact ⟨rfl, List.mem_range.mp below⟩
  · rintro ⟨rfl, below⟩
    exact ⟨conn.index, List.mem_range.mpr below, rfl⟩

theorem sound_built (size : Nat → Nat) : Sound size ⟨⟨built size, []⟩, []⟩ where
  homes := by
    intro pool conn mem
    obtain ⟨_, -, rfl⟩ := List.mem_map.mp mem
    rfl
  counted := by
    intro conn
    rw [List.countP_nil, Nat.add_zero, (nodup_built size _).count]
    exact if_congr (mem_built.trans (and_iff_right rfl)) rfl rfl
  paired := fun _ mem => absurd mem List.not_mem_nil
  locals := fun _ _ none_yet => by cases none_yet

theorem sound_next {d : Config Pools Pc} {l : Label Pc Unit} (sound : Sound size c)
    (next : connectionPool.next c l = some d) : Sound size d := by
  rcases next_cases next with ⟨p, rfl, entry, rfl⟩ | ⟨i, r, p, s, q, rfl, at_i, stepped, rfl⟩
  · refine { sound with locals := fun i r at_i => ?_ }
    rcases getElem?_snoc_cases at_i with old | rfl
    · exact sound.locals i r old
    · cases r with
      | released _ _ => cases entry
      | connMoved _ _ => cases entry
      | _ => trivial
  · have moves := moves_of_step stepped
    exact {
      homes := sound.homes_step moves
      counted := fun conn => (sound.counted_step at_i moves conn).trans (sound.counted conn)
      paired := sound.paired_step at_i moves
      locals := sound.locals_step at_i moves }

end Preserved

theorem Sound.owned {size : Nat → Nat} {c : Config Pools Pc} (sound : Sound size c) :
    Owned size c.shared where
  each := by
    intro pool conn mem
    obtain ⟨rfl, below⟩ := mem_built.mp mem
    have counted := sound.counted conn
    rw [if_pos below] at counted
    rcases Nat.eq_zero_or_pos (c.shared.leases.countP (holds conn)) with nobody | somebody
    · refine Or.inl ⟨by omega, ?_⟩
      rintro k ⟨lease, at_k, held⟩
      exact List.countP_eq_zero.mp nobody lease (List.mem_of_getElem? at_k) held
    · refine Or.inr ⟨List.count_eq_zero.mp (by omega), ?_⟩
      obtain ⟨lease, in_leases, held⟩ := List.countP_pos_iff.mp somebody
      obtain ⟨k, at_k⟩ := List.mem_iff_getElem?.mp in_leases
      refine ⟨k, ⟨lease, at_k, held⟩, ?_⟩
      rintro j ⟨other, at_j, held'⟩
      exact eq_of_countP_le_one (by omega) at_j at_k held' held
  own := by
    intro pool conn mem
    obtain rfl := sound.homes pool conn mem
    have counted := sound.counted conn
    have free := List.count_pos_iff.mpr mem
    refine mem_built.mpr ⟨rfl, ?_⟩
    by_contra beyond
    rw [if_neg beyond] at counted
    omega
  returned := by
    intro all_dead pool
    rw [List.perm_iff_count]
    intro conn
    by_cases here : conn.home = pool
    · subst here
      have nobody : c.shared.leases.countP (holds conn) = 0 := by
        rw [List.countP_eq_zero]
        intro lease mem held
        rw [holds, all_dead lease mem] at held
        cases held
      have counted := sound.counted conn
      rw [nobody, Nat.add_zero] at counted
      rw [counted, (nodup_built size _).count]
      exact (if_congr (mem_built.trans (and_iff_right rfl)) rfl rfl).symm
    · have not_free : conn ∉ c.shared.free pool := fun mem => here (sound.homes pool conn mem)
      have not_built : conn ∉ built size pool := fun mem => here (mem_built.mp mem).1
      rw [List.count_eq_zero.mpr not_free, List.count_eq_zero.mpr not_built]

/-- Whatever is done with leases, and in whatever order, a connection has one place. -/
theorem connections_owned (size : Nat → Nat) (c : Config Pools Pc)
    (reach : Reach connectionPool anyLabel ⟨⟨built size, []⟩, []⟩ c) : Owned size c.shared := by
  have sound : Sound size c :=
    reach.invariant (sound_built size) fun _ _ _ sound _ next => sound_next sound next
  exact sound.owned

theorem connections_owned_moved_over : ∃ c, Reach connectionPool anyLabel
    ⟨⟨built fun _ => 2, []⟩, []⟩ c ∧
      (c.shared.free 0 = [⟨0, 0⟩, ⟨0, 1⟩] ∧ c.shared.leases.all (·.phase = .dead)) ∧
      Owned (fun _ => 2) c.shared := by
  obtain ⟨c, reach, passed⟩ := reach_of_run_test (M := connectionPool) (G := anyLabel)
    (g := fun _ _ => true) (c := ⟨⟨built fun _ => 2, []⟩, []⟩)
    [.spawn (.acquire 0), .act 0 (), .spawn (.acquire 0), .act 1 (), .spawn (.moveAssign 0 1),
      .act 2 (), .act 2 (), .act 2 (), .spawn (.moveAssign 0 0), .act 3 (), .spawn (.destroy 1),
      .act 4 (), .spawn (.destroy 0), .act 5 ()]
    (fun c => decide (c.shared.free 0 = [⟨0, 0⟩, ⟨0, 1⟩] ∧ c.shared.leases.all (·.phase = .dead)))
    (fun _ _ _ => trivial) (by decide +kernel)
  exact ⟨c, reach, of_decide_eq_true passed, connections_owned (fun _ => 2) c reach⟩

end Scand.Store.ConnectionPool
