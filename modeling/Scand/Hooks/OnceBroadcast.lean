/- path: Scand/Hooks/OnceBroadcast
   layer: results
   digest: Each stored entry is broadcast exactly once, as long as no request comes between the add of
   another one and its reading of the store. -/

import Scand.Hooks.Requests
import Mathlib.Data.List.Nodup

set_option autoImplicit false
set_option relaxedAutoImplicit false

namespace Scand.Hooks.OnceBroadcast

open Scand.Foundation.Interleaving
open Scand.Foundation.JsonValue (Json)
open Scand.Hooks.Requests

def isReader : Pc → Bool
  | .readLast _ => true
  | _ => false

def writesStore : Pc → Bool
  | .hook _ | .notify _ | .clear => true
  | _ => false

/-- The entries do not change while a request is about to read the newest of them. -/
def Apart (c : Config Shared Pc) : Label Pc String → Prop
  | .spawn _ => True
  | .act i _ => ∀ pc ∈ c.procs[i]?, writesStore pc = true → ∀ other ∈ c.procs, isReader other = false

def hookEvent (e : WebhookEntry) : Event := { eventName := "hook", data := some e }

def isBroadcasting (e : WebhookEntry) : Pc → Bool
  | .broadcastHook e' _ => e' = e
  | _ => false

def owes (pc : Pc) : Bool :=
  match pc with
  | .readLast _ | .broadcastHook _ _ => true
  | _ => false

def readers (e : WebhookEntry) (c : Config Shared Pc) : Nat :=
  if c.shared.store.entries.head? = some e then c.procs.countP isReader else 0

/-- Every entry is stored once for each of its broadcasts, done or due. -/
structure Balanced (c : Config Shared Pc) : Prop where
  ids : c.shared.stored.map WebhookEntry.id = List.range' 1 (c.shared.store.nextId - 1)
  first : 1 ≤ c.shared.store.nextId
  balance : ∀ e, c.shared.stored.count e =
    c.shared.events.count (hookEvent e) + c.procs.countP (isBroadcasting e) + readers e c

section Steps

variable {serialize : Json → String} {c d : Config Shared Pc} {l : Label Pc String}
  {s s' : Shared} {pc pc' : Pc} {now : String} {i : Nat}

/-- The balance of one step that leaves the entries of the store alone. -/
structure Passes (s : Shared) (pc : Pc) (s' : Shared) (pc' : Pc) : Prop where
  store : s'.store = s.store
  stored : s'.stored = s.stored
  balance : ∀ e, s'.events.count (hookEvent e) + (isBroadcasting e pc').toNat +
      (if s.store.entries.head? = some e then (isReader pc').toNat else 0) =
    s.events.count (hookEvent e) + (isBroadcasting e pc).toNat +
      if s.store.entries.head? = some e then (isReader pc).toNat else 0

@[simp] theorem isBroadcasting_broadcastHook (e e' : WebhookEntry) (msgType : Option String) :
    isBroadcasting e (.broadcastHook e' msgType) = decide (e' = e) := rfl

@[simp] theorem isBroadcasting_readLast (e : WebhookEntry) (msgType : Option String) :
    isBroadcasting e (.readLast msgType) = false := rfl

@[simp] theorem isBroadcasting_after (e : WebhookEntry) (msgType : Option String) :
    isBroadcasting e (afterBroadcast msgType) = false := by cases msgType <;> rfl

@[simp] theorem isReader_readLast (msgType : Option String) :
    isReader (.readLast msgType) = true := rfl

@[simp] theorem isReader_broadcastHook (e : WebhookEntry) (msgType : Option String) :
    isReader (.broadcastHook e msgType) = false := rfl

@[simp] theorem isReader_after (msgType : Option String) :
    isReader (afterBroadcast msgType) = false := by cases msgType <;> rfl

theorem request_passes (stepped : requestStep serialize s pc now = some (s', pc'))
    (reads : writesStore pc = false) : Passes s pc s' pc' := by
  cases pc
  case readLast msgType =>
    simp only [requestStep, WebhookStore.last] at stepped
    cases entries : s.store.entries with
    | nil =>
        rw [entries] at stepped
        cases stepped
        exact ⟨rfl, rfl, fun e => by simp [entries]⟩
    | cons newest rest =>
        rw [entries] at stepped
        cases stepped
        refine ⟨rfl, rfl, fun e => ?_⟩
        by_cases same : newest = e <;> simp [entries, same]
  case broadcastHook newest msgType =>
    cases stepped
    refine ⟨rfl, rfl, fun e => ?_⟩
    by_cases same : newest = e <;> simp [send, hookEvent, same]
  case broadcastCleared =>
    cases stepped
    exact ⟨rfl, rfl, fun e => by simp [send, isBroadcasting, isReader, hookEvent]⟩
  case handleEvent msgType =>
    cases stepped
    exact ⟨rfl, rfl, fun e => rfl⟩
  case list =>
    cases stepped
    exact ⟨rfl, rfl, fun e => rfl⟩
  case finished items => cases stepped
  all_goals cases reads

theorem countP_isReader_eq_zero {ps : List Pc} (none_reads : ∀ other ∈ ps, isReader other = false) :
    ps.countP isReader = 0 :=
  List.countP_eq_zero.mpr fun other mem => by simp [none_reads other mem]

theorem Balanced.store {msgType : Option String} (balanced : Balanced c)
    (at_i : c.procs[i]? = some pc) (writes : writesStore pc = true)
    (none_reads : ∀ other ∈ c.procs, isReader other = false) (e : WebhookEntry) :
    Balanced ⟨Requests.store c.shared now e, c.procs.set i (.readLast msgType)⟩ := by
  have first := balanced.first
  have idle : ∀ e', isBroadcasting e' pc = false := by
    intro e'
    cases pc <;> first | rfl | cases writes
  have not_reader : isReader pc = false := none_reads pc (List.mem_of_getElem? at_i)
  refine ⟨?_, Nat.le_add_left _ _, fun e' => ?_⟩
  · have longer : c.shared.store.nextId + 1 - 1 = c.shared.store.nextId - 1 + 1 := by omega
    simp only [Requests.store, WebhookStore.add, List.map_append, balanced.ids, longer,
      List.range'_1_concat]
    have next : 1 + (c.shared.store.nextId - 1) = c.shared.store.nextId := by omega
    rw [next]
    rfl
  · have before := balanced.balance e'
    have broadcasts := countP_set_add (f := isBroadcasting e') (q := .readLast msgType) at_i
    have reads := countP_set_add (f := isReader) (q := .readLast msgType) at_i
    have zero := countP_isReader_eq_zero none_reads
    simp only [idle, isBroadcasting_readLast, Bool.toNat_false, Nat.add_zero] at broadcasts
    simp only [not_reader, zero, isReader_readLast, Bool.toNat_false, Bool.toNat_true, Nat.add_zero,
      Nat.zero_add] at reads
    simp only [readers, zero, ite_self, Nat.add_zero] at before
    simp only [Requests.store, readers, WebhookStore.add, List.count_append, before, broadcasts,
      reads]
    by_cases same : c.shared.store.stamp now e = e' <;> simp [same, maxSize]

theorem Balanced.clear (balanced : Balanced c) (at_i : c.procs[i]? = some .clear)
    (none_reads : ∀ other ∈ c.procs, isReader other = false) :
    Balanced ⟨{ c.shared with store := c.shared.store.clear },
      c.procs.set i .broadcastCleared⟩ := by
  refine ⟨balanced.ids, balanced.first, fun e => ?_⟩
  have before := balanced.balance e
  have broadcasts := countP_set_add (f := isBroadcasting e) (q := .broadcastCleared) at_i
  have zero := countP_isReader_eq_zero none_reads
  simp only [isBroadcasting, Bool.toNat_false, Nat.add_zero] at broadcasts
  simp only [readers, zero, ite_self, Nat.add_zero] at before
  simp [readers, WebhookStore.clear, before, broadcasts]

theorem Balanced.next (balanced : Balanced c) (guard : Apart c l)
    (moved : (requests serialize).next c l = some d) : Balanced d := by
  rcases next_cases moved with ⟨p, rfl, entry, rfl⟩ | ⟨i, now, p, s', q, rfl, at_i, stepped, rfl⟩
  · refine ⟨balanced.ids, balanced.first, fun e => ?_⟩
    have idle : isBroadcasting e p = false ∧ isReader p = false := by
      cases p <;> first | exact ⟨rfl, rfl⟩ | cases entry
    simp only [readers, countP_snoc, idle, Bool.toNat_false, Nat.add_zero]
    exact balanced.balance e
  · cases writes : writesStore p with
    | true =>
        have none_reads := guard p at_i writes
        cases p
        case hook body =>
          cases stepped
          exact balanced.store at_i writes none_reads _
        case notify body =>
          cases stepped
          exact balanced.store at_i writes none_reads _
        case clear =>
          cases stepped
          exact balanced.clear at_i none_reads
        all_goals cases writes
    | false =>
        have passes := request_passes stepped writes
        refine ⟨by simpa only [passes.store, passes.stored] using balanced.ids,
          by simpa only [passes.store] using balanced.first, fun e => ?_⟩
        have before := balanced.balance e
        have now := passes.balance e
        have broadcasts := countP_set_add (f := isBroadcasting e) (q := q) at_i
        have reads := countP_set_add (f := isReader) (q := q) at_i
        simp only [readers, passes.store, passes.stored] at before ⊢
        split at now <;> rename_i newest <;> simp only [newest, if_true, if_false] at before ⊢ <;>
          omega

theorem initial_balanced : Balanced ⟨{}, []⟩ :=
  ⟨rfl, Nat.le_refl 1, fun e => by simp [readers]⟩

theorem Balanced.stored_once (balanced : Balanced c) {e : WebhookEntry}
    (stored : e ∈ c.shared.stored) : c.shared.stored.count e = 1 := by
  have distinct : (c.shared.stored.map WebhookEntry.id).Nodup := by
    rw [balanced.ids]
    exact List.nodup_range'
  exact List.count_eq_one_of_mem (List.Nodup.of_map _ distinct) stored

end Steps

/-- In every run of requests that keep apart, each entry that was stored is broadcast at most once, and
exactly once when no request still owes a broadcast. -/
theorem broadcast_exactly_once (serialize : Json → String) (c : Config Shared Pc)
    (reach : Reach (requests serialize) Apart ⟨{}, []⟩ c) (e : WebhookEntry)
    (stored : e ∈ c.shared.stored) :
    c.shared.events.count (hookEvent e) ≤ 1 ∧
      ((∀ pc ∈ c.procs, owes pc = false) → c.shared.events.count (hookEvent e) = 1) := by
  have balanced : Balanced c := reach.invariant initial_balanced
    fun _ _ _ before guard moved => before.next guard moved
  have once := balanced.stored_once stored
  have balance := balanced.balance e
  refine ⟨by omega, fun settled => ?_⟩
  have no_broadcast : c.procs.countP (isBroadcasting e) = 0 :=
    List.countP_eq_zero.mpr fun pc mem => by
      have free := settled pc mem
      cases pc <;> first | (cases free; done) | simp [isBroadcasting]
  have no_reader : c.procs.countP isReader = 0 := countP_isReader_eq_zero fun pc mem => by
    have free := settled pc mem
    cases pc <;> first | rfl | cases free
  simp only [no_broadcast, readers, no_reader, ite_self, Nat.add_zero] at balance
  omega

section Sample

instance : ∀ c l, Decidable (Apart c l)
  | _, .spawn _ => .isTrue trivial
  | c, .act i _ => inferInstanceAs (Decidable
      (∀ pc ∈ c.procs[i]?, writesStore pc = true → ∀ other ∈ c.procs, isReader other = false))

def emptyText : Json → String
  | .object [] => "{}"
  | _ => ""

def twoRequests : List (Label Pc String) :=
  [.spawn (.hook (.object [])), .spawn (.notify (.object []))]

def firstHook : WebhookEntry :=
  { hookEntry emptyText (.object []) with id := 1, receivedAt := "2026-10-02T10:00:00Z" }

def secondHook : WebhookEntry :=
  { notifyEntry emptyText (.object []) with id := 2, receivedAt := "2026-10-02T10:00:00Z" }

def everySecond (i : Nat) : Label Pc String := .act i "2026-10-02T10:00:00Z"

/-- Two requests store their entries before either of them reads the newest one: the second entry is
broadcast twice, and the first one never. -/
theorem entry_lost :
    ∃ c, Reach (requests emptyText) anyLabel ⟨{}, []⟩ c ∧
      c.shared.stored = [firstHook, secondHook] ∧ (∀ pc ∈ c.procs, owes pc = false) ∧
      c.shared.events.count (hookEvent firstHook) = 0 ∧
      c.shared.events.count (hookEvent secondHook) = 2 := by
  obtain ⟨c, reach, passed⟩ := reach_of_run_test (M := requests emptyText) (G := anyLabel)
    (c := ⟨{}, []⟩) (g := fun _ _ => true)
    (twoRequests ++ [0, 1, 0, 0, 1, 1, 1].map everySecond)
    (fun c => decide (c.shared.stored = [firstHook, secondHook] ∧
      (∀ pc ∈ c.procs, owes pc = false) ∧ c.shared.events.count (hookEvent firstHook) = 0 ∧
      c.shared.events.count (hookEvent secondHook) = 2)) (fun _ _ _ => trivial) (by decide +kernel)
  exact ⟨c, reach, of_decide_eq_true passed⟩

theorem broadcast_exactly_once_apart :
    ∃ c, Reach (requests emptyText) Apart ⟨{}, []⟩ c ∧ firstHook ∈ c.shared.stored ∧
      c.shared.events.count (hookEvent firstHook) = 1 := by
  obtain ⟨c, reach, passed⟩ := reach_of_run_test (M := requests emptyText) (G := Apart)
    (c := ⟨{}, []⟩) (g := fun c l => decide (Apart c l))
    (twoRequests ++ [0, 0, 1, 0, 1, 1, 1].map everySecond)
    (fun c => decide (firstHook ∈ c.shared.stored ∧ ∀ pc ∈ c.procs, owes pc = false))
    (fun _ _ => of_decide_eq_true) (by decide +kernel)
  obtain ⟨stored, settled⟩ := of_decide_eq_true passed
  exact ⟨c, reach, stored, (broadcast_exactly_once emptyText c reach firstHook stored).2 settled⟩

end Sample

end Scand.Hooks.OnceBroadcast
