/- path: Scand/Hooks/DueBroadcasts
   layer: results
   digest: What a request owes between its change of the store and the last send of its broadcast: the
   event that tells the change, as long as no other change comes in between. -/

import Scand.Hooks.Connections
import Scand.Hooks.OnceBroadcast

set_option autoImplicit false
set_option relaxedAutoImplicit false

namespace Scand.Hooks.DueBroadcasts

open Scand.Foundation.Interleaving
open Scand.Foundation.JsonValue (Json)
open Scand.Hooks.Connections
open Scand.Hooks.OnceBroadcast (hookEvent writesStore)
open Scand.Hooks.Requests (WebhookEntry WebhookStore Event afterBroadcast requestStep maxSize)

def clearedEvent : Event := { eventName := "cleared", data := none }

/-- The event that a place is going to broadcast, or is broadcasting. -/
def due (store : WebhookStore) : Pc → Option Event
  | .request (.readLast _) => store.entries.head?.map hookEvent
  | .request (.broadcastHook e _) => some (hookEvent e)
  | .request .broadcastCleared => some clearedEvent
  | .takeSnapshot event _ | .sendAll event _ _ => some event
  | _ => none

def isDue : Pc → Bool
  | .request (.readLast _) | .request (.broadcastHook _ _) | .request .broadcastCleared => true
  | .takeSnapshot _ _ | .sendAll _ _ _ => true
  | _ => false

def dueTo (i : Nat) (store : WebhookStore) : Pc → Option Event
  | .sendAll event rest _ => if i ∈ rest then some event else none
  | pc => due store pc

def changesStore : Pc → Bool
  | .request pc => writesStore pc
  | _ => false

/-- The event tells the last change of the store. -/
inductive Current (store : WebhookStore) : Event → Prop
  | hook (e : WebhookEntry) : store.entries.head? = some e → Current store (hookEvent e)
  | cleared : store.entries = [] → Current store clearedEvent

/-- At most one process owes a broadcast, and that one tells the last change of the store. -/
structure Orderly (c : Config Shared Pc) : Prop where
  one : ∀ (j k : Nat) (p q : Pc), c.procs[j]? = some p → c.procs[k]? = some q → isDue p = true →
    isDue q = true → j = k
  current : ∀ pc ∈ c.procs, isDue pc = true →
    ∃ event, due c.shared.hooks.store pc = some event ∧ Current c.shared.hooks.store event
  ids : ∀ e ∈ c.shared.hooks.store.entries, e.id < c.shared.hooks.store.nextId

section Places

variable {store : WebhookStore} {pc : Pc} {i : Nat} {event : Event}

theorem dueTo_isDue (owed : dueTo i store pc = some event) : isDue pc = true := by
  cases pc with
  | request pc => cases pc <;> first | rfl | cases owed
  | takeSnapshot _ _ => rfl
  | sendAll _ _ _ => rfl
  | _ => cases owed

theorem dueTo_due (owed : dueTo i store pc = some event) : due store pc = some event := by
  cases pc with
  | sendAll _ rest _ =>
      simp only [dueTo, Option.ite_none_right_eq_some] at owed
      exact owed.2
  | _ => exact owed

theorem dueTo_none (free : isDue pc = false) : dueTo i store pc = none := by
  by_contra owed
  obtain ⟨event, owed⟩ := Option.ne_none_iff_exists'.mp owed
  exact absurd (free.symm.trans (dueTo_isDue owed)) (by decide)

end Places

section Orderly

variable {c : Config Shared Pc} {j : Nat} {pc pc' : Pc} {s' : Shared} {event : Event}

theorem Orderly.moved (before : Orderly c) (at_j : c.procs[j]? = some pc)
    (same : s'.hooks.store = c.shared.hooks.store)
    (owes : isDue pc' = true → isDue pc = true ∧
      due c.shared.hooks.store pc' = due c.shared.hooks.store pc) :
    Orderly ⟨s', c.procs.set j pc'⟩ := by
  have old : ∀ (k : Nat) (q : Pc), (c.procs.set j pc')[k]? = some q → isDue q = true →
      ∃ p, c.procs[k]? = some p ∧ isDue p = true := by
    intro k q at_k due_q
    rcases getElem?_set_cases at_k with ⟨rfl, rfl⟩ | ⟨-, at_k⟩
    · exact ⟨pc, at_j, (owes due_q).1⟩
    · exact ⟨q, at_k, due_q⟩
  constructor
  · intro k m p q at_k at_m due_p due_q
    obtain ⟨p', at_k', due_p'⟩ := old k p at_k due_p
    obtain ⟨q', at_m', due_q'⟩ := old m q at_m due_q
    exact before.one k m p' q' at_k' at_m' due_p' due_q'
  · intro q mem due_q
    rw [same]
    rcases mem_set_cases mem with rfl | ⟨k, -, at_k⟩
    · obtain ⟨due_pc, told⟩ := owes due_q
      rw [told]
      exact before.current pc (List.mem_of_getElem? at_j) due_pc
    · exact before.current q (List.mem_of_getElem? at_k) due_q
  · rw [same]
    exact before.ids

theorem Orderly.stored (none_due : ∀ other ∈ c.procs, isDue other = false)
    (told : due s'.hooks.store pc' = some event) (current : Current s'.hooks.store event)
    (ids : ∀ e ∈ s'.hooks.store.entries, e.id < s'.hooks.store.nextId) :
    Orderly ⟨s', c.procs.set j pc'⟩ := by
  have own : ∀ (k : Nat) (q : Pc), (c.procs.set j pc')[k]? = some q → isDue q = true →
      j = k ∧ q = pc' := by
    intro k q at_k due_q
    rcases getElem?_set_cases at_k with ⟨rfl, rfl⟩ | ⟨-, at_k⟩
    · exact ⟨rfl, rfl⟩
    · have free := none_due q (List.mem_of_getElem? at_k)
      exact absurd (free.symm.trans due_q) (by decide)
  refine ⟨?_, ?_, ids⟩
  · intro k m p q at_k at_m due_p due_q
    exact (own k p at_k due_p).1.symm.trans (own m q at_m due_q).1
  · intro q mem due_q
    obtain ⟨k, at_k⟩ := List.mem_iff_getElem?.mp mem
    obtain ⟨-, rfl⟩ := own k q at_k due_q
    exact ⟨event, told, current⟩

end Orderly

inductive Change (store : WebhookStore) : WebhookStore → Event → Prop
  | hook (e : WebhookEntry) : e.id = store.nextId → Change store
      { entries := (e :: store.entries).take maxSize, nextId := store.nextId + 1 } (hookEvent e)
  | cleared : Change store store.clear clearedEvent

section Changes

variable {store store' : WebhookStore} {event : Event}

theorem Change.current (change : Change store store' event) : Current store' event := by
  cases change with
  | hook e _ => exact .hook e (by simp [maxSize])
  | cleared => exact .cleared rfl

theorem Change.grows (change : Change store store' event) : store.nextId ≤ store'.nextId := by
  cases change with
  | hook e _ => exact Nat.le_succ _
  | cleared => exact Nat.le_refl _

theorem Change.ids (change : Change store store' event)
    (ids : ∀ e ∈ store.entries, e.id < store.nextId) : ∀ e ∈ store'.entries, e.id < store'.nextId := by
  cases change with
  | hook e numbered =>
      intro stored mem
      show stored.id < store.nextId + 1
      rcases List.mem_cons.mp (List.mem_of_mem_take mem) with rfl | old
      · omega
      · exact Nat.lt_succ_of_lt (ids stored old)
  | cleared =>
      intro e mem
      cases mem

end Changes

section Steps

variable {serialize : Json → String} {c : Config Shared Pc} {j : Nat} {s s' : Shared} {pc pc' : Pc}
  {r : Reply} {now : String}

theorem isDue_after (msgType : Option String) : isDue (.request (afterBroadcast msgType)) = false := by
  cases msgType <;> rfl

/-- A step of a request that leaves the store alone: what it owes stays the same. -/
structure Still (s : Shared) (pc : Pc) (s' : Shared) (pc' : Pc) : Prop where
  store : s'.hooks.store = s.hooks.store
  isDue_eq : isDue pc' = isDue pc
  due_eq : due s.hooks.store pc' = due s.hooks.store pc
  dueTo_eq : ∀ i, dueTo i s.hooks.store pc' = dueTo i s.hooks.store pc
  unlisted : isListed pc' = false

/-- A step of a request either changes the store and owes the event that tells it, or leaves the store
alone. -/
theorem hookStep_cases {pc : Requests.Pc} (stepped : hookStep serialize s pc now = some (s', pc'))
    (told : isDue (.request pc) = true → ∃ event, due s.hooks.store (.request pc) = some event) :
    (s'.subs = s.subs ∧ s'.subscriber = s.subscriber) ∧
    ((writesStore pc = true ∧ ∃ event request, pc' = .request request ∧
        Change s.hooks.store s'.hooks.store event ∧
        due s'.hooks.store (.request request) = some event) ∨
      Still s (.request pc) s' pc') := by
  obtain ⟨⟨hooks, next⟩, moved, same⟩ := Option.map_eq_some_iff.mp stepped
  cases same
  refine ⟨⟨rfl, rfl⟩, ?_⟩
  cases pc with
  | hook body =>
      cases moved
      refine Or.inl ⟨rfl, _, _, rfl, .hook _ rfl, ?_⟩
      simp [due, Requests.store, WebhookStore.add, maxSize]
  | notify body =>
      cases moved
      refine Or.inl ⟨rfl, _, _, rfl, .hook _ rfl, ?_⟩
      simp [due, Requests.store, WebhookStore.add, maxSize]
  | clear =>
      cases moved
      exact Or.inl ⟨rfl, _, _, rfl, .cleared, rfl⟩
  | readLast msgType =>
      obtain ⟨event, newest⟩ := told rfl
      obtain ⟨e, first, -⟩ := Option.map_eq_some_iff.mp newest
      obtain ⟨rest, entries⟩ := List.head?_eq_some_iff.mp first
      simp only [requestStep, WebhookStore.last, entries, List.take_succ_cons, Option.some.injEq,
        Prod.mk.injEq] at moved
      obtain ⟨rfl, rfl⟩ := moved
      have told_e : due s.hooks.store (.request (.readLast msgType)) = some (hookEvent e) := by
        simp [due, entries]
      exact Or.inr ⟨rfl, rfl, told_e.symm, fun _ => told_e.symm, rfl⟩
  | broadcastHook e msgType =>
      cases moved
      exact Or.inr ⟨rfl, rfl, rfl, fun _ => rfl, rfl⟩
  | broadcastCleared =>
      cases moved
      exact Or.inr ⟨rfl, rfl, rfl, fun _ => rfl, rfl⟩
  | handleEvent msgType =>
      cases moved
      exact Or.inr ⟨rfl, rfl, rfl, fun _ => rfl, rfl⟩
  | list =>
      cases moved
      exact Or.inr ⟨rfl, rfl, rfl, fun _ => rfl, rfl⟩
  | finished items => cases moved

theorem Orderly.told (orderly : Orderly c) (at_j : c.procs[j]? = some pc) (owes : isDue pc = true) :
    ∃ event, due c.shared.hooks.store pc = some event := by
  obtain ⟨event, told, -⟩ := orderly.current pc (List.mem_of_getElem? at_j) owes
  exact ⟨event, told⟩

theorem Orderly.next (before : Orderly c) (at_j : c.procs[j]? = some pc)
    (guard : changesStore pc = true → ∀ other ∈ c.procs, isDue other = false)
    (stepped : connectedStep serialize j c.shared pc r = some (s', pc')) :
    Orderly ⟨s', c.procs.set j pc'⟩ := by
  have free : isDue pc' = false → s'.hooks.store = c.shared.hooks.store →
      Orderly ⟨s', c.procs.set j pc'⟩ := fun free same =>
    before.moved at_j same fun owes => absurd (free.symm.trans owes) (by decide)
  cases pc with
  | request pc =>
      obtain ⟨-, ⟨writes, event, request, rfl, change, told⟩ | still⟩ :=
        hookStep_cases stepped (before.told at_j)
      · exact Orderly.stored (guard writes) told change.current (change.ids before.ids)
      · exact before.moved at_j still.store fun owes => ⟨still.isDue_eq ▸ owes, still.due_eq⟩
  | takeSnapshot event msgType =>
      cases stepped
      exact before.moved at_j rfl fun _ => ⟨rfl, rfl⟩
  | sendAll event rest msgType =>
      cases rest with
      | nil =>
          cases stepped
          exact free (isDue_after msgType) rfl
      | cons t rest =>
          cases stepped
          exact before.moved at_j rfl fun _ => ⟨rfl, rfl⟩
  | add lastEventId =>
      cases stepped
      refine free ?_ rfl
      split <;> rfl
  | sendMissed rest => cases rest <;> cases stepped <;> exact free rfl rfl
  | keepAlive =>
      cases stepped
      refine free ?_ rfl
      split <;> rfl
  | replay => cases stepped; exact free rfl rfl
  | readStore => cases stepped; exact free rfl rfl
  | sendInit items => cases stepped; exact free rfl rfl
  | remove => cases stepped; exact free rfl rfl
  | failWrite t => cases stepped; exact free rfl rfl
  | finished => cases stepped

end Steps

end Scand.Hooks.DueBroadcasts
