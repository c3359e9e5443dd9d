/- path: Scand/Hooks/ClientList
   layer: results
   digest: The list of hooks at a client that connects at any time and follows its stream: the entries
   that GET /api/hooks answers, as long as the store keeps still while a broadcast is due and while the
   connection has read the store and not yet sent what it read. -/

import Scand.Hooks.DueBroadcasts

set_option autoImplicit false
set_option relaxedAutoImplicit false

namespace Scand.Hooks.ClientList

open Scand.Foundation.Interleaving
open Scand.Foundation.JsonValue (Json)
open Scand.Hooks.Connections
open Scand.Hooks.DueBroadcasts
open Scand.Hooks.OnceBroadcast (hookEvent writesStore)
open Scand.Sse.Broker (mem_insertSub self_mem_insertSub)
open Scand.Hooks.Requests (WebhookEntry WebhookStore Event afterBroadcast requestStep maxSize)

/-- What a client makes of a broadcast: a hook that it does not know yet comes to the front. -/
def shownAfter (items : List WebhookEntry) (event : Event) : List WebhookEntry :=
  match event.data with
  | some e => if items.any fun known => known.id = e.id then items else e :: items
  | none => []

def shown (items : List WebhookEntry) : Message → List WebhookEntry
  | .init stored => stored
  | .event event => shownAfter items event

def view (stream : List Message) : List WebhookEntry := stream.foldl shown []

def isHolding : Pc → Bool
  | .sendInit _ => true
  | _ => false

/-- The store does not change while a broadcast is due, nor while connection `i` holds what it read. -/
def Serial (i : Nat) (c : Config Shared Pc) : Label Pc Reply → Prop
  | .spawn _ => True
  | .act j _ => ∀ pc ∈ c.procs[j]?, changesStore pc = true →
      (∀ other ∈ c.procs, isDue other = false) ∧ ∀ own ∈ c.procs[i]?, isHolding own = false

/-- The items of a client are the newest entries, once the broadcast that is due has reached it. -/
structure Shows (i : Nat) (items : List WebhookEntry) (c : Config Shared Pc) : Prop where
  known : ∀ e ∈ items, e.id < c.shared.hooks.store.nextId
  upToDate : (∀ pc ∈ c.procs, dueTo i c.shared.hooks.store pc = none) →
    items.take 200 = c.shared.hooks.store.last 200
  pending : ∀ pc ∈ c.procs, ∀ event, dueTo i c.shared.hooks.store pc = some event →
    (shownAfter items event).take 200 = c.shared.hooks.store.last 200

/-- Connection `i`, while no write has failed. -/
structure Follows (i : Nat) (c : Config Shared Pc) : Prop where
  orderly : Orderly c
  listed : ∀ pc, c.procs[i]? = some pc → isListed pc = true →
    (c.shared.subscriber i).isOpen = true → i ∈ c.shared.subs
  held : ∀ items, c.procs[i]? = some (.sendInit items) → items = c.shared.hooks.store.last 200
  shows : c.procs[i]? = some .keepAlive → (c.shared.subscriber i).isOpen = true →
    Shows i (view (c.shared.subscriber i).stream) c

section Views

variable {items : List WebhookEntry} {store : WebhookStore} {event : Event}

theorem view_snoc (stream : List Message) (message : Message) :
    view (stream ++ [message]) = shown (view stream) message := by
  rw [view, List.foldl_append]
  rfl

theorem shownAfter_known {e : WebhookEntry} (known : e ∈ items) :
    shownAfter items (hookEvent e) = items :=
  if_pos (List.any_eq_true.mpr ⟨e, known, decide_eq_true rfl⟩)

theorem shownAfter_new {e : WebhookEntry} (fresh : ∀ known ∈ items, known.id < e.id) :
    shownAfter items (hookEvent e) = e :: items := by
  refine if_neg fun known => ?_
  obtain ⟨other, mem, same⟩ := List.any_eq_true.mp known
  have smaller := fresh other mem
  have equal : other.id = e.id := of_decide_eq_true same
  omega

theorem shownAfter_again : shownAfter (shownAfter items event) event = shownAfter items event := by
  obtain ⟨eventName, data⟩ := event
  cases data with
  | none => rfl
  | some e =>
      by_cases known : (items.any fun known => known.id = e.id) = true
      · simp [shownAfter, known]
      · simp [shownAfter, known]

theorem shownAfter_last (current : Current store event) :
    shownAfter (store.last 200) event = store.last 200 := by
  cases current with
  | hook e first =>
      obtain ⟨rest, entries⟩ := List.head?_eq_some_iff.mp first
      refine shownAfter_known ?_
      rw [WebhookStore.last, entries]
      exact List.mem_cons_self
  | cleared empty =>
      rw [WebhookStore.last, empty]
      rfl

theorem shownAfter_change {store' : WebhookStore} (change : Change store store' event)
    (known : ∀ e ∈ items, e.id < store.nextId) (settled : items.take 200 = store.last 200) :
    (shownAfter items event).take 200 = store'.last 200 := by
  cases change with
  | hook e numbered =>
      have tails := congrArg (List.take 199) settled
      rw [shownAfter_new fun other mem => numbered ▸ known other mem]
      simp only [WebhookStore.last, maxSize, List.take_take] at tails ⊢
      simpa using tails
  | cleared => rfl

theorem last_take : (store.last 200).take 200 = store.last 200 := by
  rw [WebhookStore.last, List.take_take, Nat.min_self]

end Views

section Steps

variable {serialize : Json → String} {c d : Config Shared Pc} {l : Label Pc Reply} {i j : Nat}
  {pc pc' : Pc} {s' : Shared} {items : List WebhookEntry} {event : Event}

theorem Shows.moved (before : Shows i items c) (at_j : c.procs[j]? = some pc)
    (same : s'.hooks.store = c.shared.hooks.store)
    (owes : dueTo i c.shared.hooks.store pc' = dueTo i c.shared.hooks.store pc) :
    Shows i items ⟨s', c.procs.set j pc'⟩ := by
  constructor
  · rw [same]
    exact before.known
  · intro none_due
    rw [same] at none_due ⊢
    refine before.upToDate fun q mem => ?_
    obtain ⟨k, at_k⟩ := List.mem_iff_getElem?.mp mem
    by_cases here : j = k
    · subst here
      obtain rfl : pc = q := Option.some.inj (at_j.symm.trans at_k)
      exact owes.symm.trans (none_due pc' (List.mem_of_getElem? (getElem?_set_here at_j)))
    · rw [← List.getElem?_set_ne here] at at_k
      exact none_due q (List.mem_of_getElem? at_k)
  · intro q mem event owed
    rw [same] at owed ⊢
    rcases mem_set_cases mem with rfl | ⟨k, -, at_k⟩
    · exact before.pending pc (List.mem_of_getElem? at_j) event (owes.symm.trans owed)
    · exact before.pending q (List.mem_of_getElem? at_k) event owed

theorem Shows.delivered (before : Shows i items c) (orderly : Orderly c)
    (at_j : c.procs[j]? = some pc) (same : s'.hooks.store = c.shared.hooks.store)
    (owed : dueTo i c.shared.hooks.store pc = some event)
    (owes : ∀ later, dueTo i c.shared.hooks.store pc' = some later → later = event) :
    Shows i (shownAfter items event) ⟨s', c.procs.set j pc'⟩ := by
  have mem : pc ∈ c.procs := List.mem_of_getElem? at_j
  have brought := before.pending pc mem event owed
  constructor
  · intro e shown_e
    rw [same]
    obtain ⟨told, here, current⟩ := orderly.current pc mem (dueTo_isDue owed)
    obtain rfl : event = told := Option.some.inj ((dueTo_due owed).symm.trans here)
    cases current with
    | hook newest first =>
        simp only [shownAfter, hookEvent] at shown_e
        split at shown_e
        · exact before.known e shown_e
        · rcases List.mem_cons.mp shown_e with rfl | old
          · exact orderly.ids _ (List.mem_of_mem_head? first)
          · exact before.known e old
    | cleared empty => cases shown_e
  · intro _
    rw [same]
    exact brought
  · intro q mem' later owed'
    rw [same] at owed' ⊢
    rcases mem_set_cases mem' with rfl | ⟨k, apart, at_k⟩
    · rw [owes later owed', shownAfter_again]
      exact brought
    · exact absurd (orderly.one j k pc q at_j at_k (dueTo_isDue owed) (dueTo_isDue owed')) apart

theorem Shows.stored (before : Shows i items c) (at_j : c.procs[j]? = some pc)
    (none_due : ∀ other ∈ c.procs, isDue other = false)
    (told : dueTo i s'.hooks.store pc' = some event)
    (grows : c.shared.hooks.store.nextId ≤ s'.hooks.store.nextId)
    (brings : items.take 200 = c.shared.hooks.store.last 200 →
      (shownAfter items event).take 200 = s'.hooks.store.last 200) :
    Shows i items ⟨s', c.procs.set j pc'⟩ := by
  have settled := before.upToDate fun q mem => dueTo_none (none_due q mem)
  constructor
  · intro e mem
    exact Nat.lt_of_lt_of_le (before.known e mem) grows
  · intro free
    have owed := free pc' (List.mem_of_getElem? (getElem?_set_here at_j))
    cases owed.symm.trans told
  · intro q mem later owed
    rcases mem_set_cases mem with rfl | ⟨k, -, at_k⟩
    · obtain rfl : later = event := Option.some.inj (owed.symm.trans told)
      exact brings settled
    · have free := none_due q (List.mem_of_getElem? at_k)
      exact absurd (free.symm.trans (dueTo_isDue owed)) (by decide)

theorem shows_last (orderly : Orderly c) : Shows i (c.shared.hooks.store.last 200) c := by
  refine ⟨fun e mem => orderly.ids e (List.mem_of_mem_take mem), fun _ => last_take, ?_⟩
  intro pc mem event owed
  obtain ⟨told, here, current⟩ := orderly.current pc mem (dueTo_isDue owed)
  obtain rfl : event = told := Option.some.inj ((dueTo_due owed).symm.trans here)
  rw [shownAfter_last current]
  exact last_take

end Steps

section Runs

variable {serialize : Json → String} {c d : Config Shared Pc} {l : Label Pc Reply} {i j : Nat}
  {s s' : Shared} {pc pc' : Pc} {r : Reply} {now : String}

theorem Shows.next (orderly : Orderly c) (at_j : c.procs[j]? = some pc) (apart : i ≠ j)
    (guard : changesStore pc = true → ∀ other ∈ c.procs, isDue other = false)
    (stepped : connectedStep serialize j c.shared pc r = some (s', pc'))
    (listed : i ∈ c.shared.subs) (is_open : (s'.subscriber i).isOpen = true)
    (before : Shows i (view (c.shared.subscriber i).stream) c) :
    Shows i (view (s'.subscriber i).stream) ⟨s', c.procs.set j pc'⟩ := by
  have kept : s'.subscriber i = c.shared.subscriber i → s'.hooks.store = c.shared.hooks.store →
      dueTo i c.shared.hooks.store pc' = dueTo i c.shared.hooks.store pc →
      Shows i (view (s'.subscriber i).stream) ⟨s', c.procs.set j pc'⟩ := by
    intro same store owes
    rw [same]
    exact before.moved at_j store owes
  cases pc with
  | request pc =>
      obtain ⟨⟨-, same⟩, ⟨writes, event, request, rfl, change, told⟩ | still⟩ :=
        hookStep_cases stepped (orderly.told at_j)
      · rw [same]
        exact before.stored at_j (guard writes) told change.grows (shownAfter_change change before.known)
      · exact kept (by rw [same]) still.store (still.dueTo_eq i)
  | takeSnapshot event msgType =>
      cases stepped
      exact kept rfl rfl (if_pos listed)
  | sendAll event rest msgType =>
      cases rest with
      | nil =>
          cases stepped
          exact kept rfl rfl (dueTo_none (isDue_after msgType))
      | cons t rest =>
          cases stepped
          by_cases mine : i = t
          · subst mine
            have was_open : (c.shared.subscriber i).isOpen = true := by simpa using is_open
            rw [stream_send was_open, view_snoc]
            refine before.delivered orderly at_j rfl (if_pos List.mem_cons_self) ?_
            intro later owed
            exact Option.some.inj ((dueTo_due owed).symm)
          · refine kept (subscriber_send_of_ne mine) rfl ?_
            simp [dueTo, mine]
  | add lastEventId =>
      cases stepped
      refine kept (Function.update_of_ne apart _ _) rfl ?_
      split <;> rfl
  | sendMissed rest =>
      cases rest with
      | nil =>
          cases stepped
          exact kept rfl rfl rfl
      | cons event rest =>
          cases stepped
          exact kept (subscriber_send_of_ne apart) rfl rfl
  | sendInit items =>
      cases stepped
      exact kept (subscriber_send_of_ne apart) rfl rfl
  | keepAlive =>
      cases stepped
      refine kept rfl rfl ?_
      split <;> rfl
  | failWrite t =>
      cases stepped
      exact kept (subscriber_close_of_ne (isOpen_of_close is_open)) rfl rfl
  | replay => cases stepped; exact kept rfl rfl rfl
  | readStore => cases stepped; exact kept rfl rfl rfl
  | remove => cases stepped; exact kept rfl rfl rfl
  | finished => cases stepped

structure Beside (i : Nat) (s : Shared) (pc : Pc) (s' : Shared) : Prop where
  subs : i ∈ s.subs → i ∈ s'.subs
  wasOpen : (s'.subscriber i).isOpen = true → (s.subscriber i).isOpen = true
  store : changesStore pc = false → s'.hooks.store = s.hooks.store

theorem step_beside (orderly : Orderly c) (at_j : c.procs[j]? = some pc) (apart : i ≠ j)
    (stepped : connectedStep serialize j c.shared pc r = some (s', pc')) :
    Beside i c.shared pc s' := by
  cases pc with
  | request pc =>
      obtain ⟨⟨subs, same⟩, ⟨writes, -⟩ | still⟩ := hookStep_cases stepped (orderly.told at_j)
      · exact ⟨subs ▸ id, same ▸ id, fun reads => absurd (writes.symm.trans reads) (by decide)⟩
      · exact ⟨subs ▸ id, same ▸ id, fun _ => still.store⟩
  | add lastEventId =>
      cases stepped
      refine ⟨mem_insertSub r.place, ?_, fun _ => rfl⟩
      simp only [Function.update_of_ne apart]
      exact id
  | sendAll event rest msgType =>
      cases rest with
      | nil =>
          cases stepped
          exact ⟨id, id, fun _ => rfl⟩
      | cons t rest =>
          cases stepped
          exact ⟨id, fun still => isOpen_send ▸ still, fun _ => rfl⟩
  | sendMissed rest =>
      cases rest with
      | nil =>
          cases stepped
          exact ⟨id, id, fun _ => rfl⟩
      | cons event rest =>
          cases stepped
          exact ⟨id, fun still => isOpen_send ▸ still, fun _ => rfl⟩
  | sendInit items =>
      cases stepped
      exact ⟨id, fun still => isOpen_send ▸ still, fun _ => rfl⟩
  | remove =>
      cases stepped
      exact ⟨fun listed => (List.mem_erase_of_ne apart).mpr listed, id, fun _ => rfl⟩
  | failWrite t =>
      cases stepped
      refine ⟨id, fun still => ?_, fun _ => rfl⟩
      rw [← subscriber_close_of_ne (isOpen_of_close still)]
      exact still
  | takeSnapshot event msgType => cases stepped; exact ⟨id, id, fun _ => rfl⟩
  | replay => cases stepped; exact ⟨id, id, fun _ => rfl⟩
  | readStore => cases stepped; exact ⟨id, id, fun _ => rfl⟩
  | keepAlive => cases stepped; exact ⟨id, id, fun _ => rfl⟩
  | finished => cases stepped

theorem Follows.beside (before : Follows i c) (at_j : c.procs[j]? = some pc) (apart : i ≠ j)
    (guard : changesStore pc = true →
      (∀ other ∈ c.procs, isDue other = false) ∧ ∀ own ∈ c.procs[i]?, isHolding own = false)
    (stepped : connectedStep serialize j c.shared pc r = some (s', pc')) :
    Follows i ⟨s', c.procs.set j pc'⟩ := by
  have quiet := fun writes => (guard writes).1
  have frame := step_beside before.orderly at_j apart stepped
  have own : (c.procs.set j pc')[i]? = c.procs[i]? := List.getElem?_set_ne apart.symm
  refine ⟨before.orderly.next at_j quiet stepped, ?_, ?_, ?_⟩
  · intro p at_i connected still
    exact frame.subs (before.listed p (own ▸ at_i) connected (frame.wasOpen still))
  · intro items at_i
    have holding : c.procs[i]? = some (.sendInit items) := own ▸ at_i
    have reads : changesStore pc = false := by
      by_contra writes
      have free := (guard (Bool.eq_true_of_not_eq_false writes)).2 _ holding
      cases free
    rw [frame.store reads]
    exact before.held items holding
  · intro at_i still
    have greeted : c.procs[i]? = some .keepAlive := own ▸ at_i
    have was_open := frame.wasOpen still
    exact (before.shows greeted was_open).next before.orderly at_j apart quiet stepped
      (before.listed _ greeted rfl was_open) still

theorem Follows.ungreeted (orderly : Orderly ⟨s', c.procs.set i pc'⟩) (at_i : c.procs[i]? = some pc)
    (listed : isListed pc' = true → (s'.subscriber i).isOpen = true → i ∈ s'.subs)
    (held : ∀ items, pc' = .sendInit items → items = s'.hooks.store.last 200)
    (ungreeted : pc' ≠ .keepAlive) : Follows i ⟨s', c.procs.set i pc'⟩ := by
  have own : (c.procs.set i pc')[i]? = some pc' := getElem?_set_here at_i
  refine ⟨orderly, ?_, ?_, ?_⟩
  · intro p at_p connected still
    obtain rfl : pc' = p := Option.some.inj (own.symm.trans at_p)
    exact listed connected still
  · intro items at_p
    exact held items (Option.some.inj (own.symm.trans at_p))
  · intro at_p _
    exact absurd (Option.some.inj (own.symm.trans at_p)) ungreeted

theorem Follows.own (before : Follows i c) (at_i : c.procs[i]? = some pc)
    (guard : changesStore pc = true → ∀ other ∈ c.procs, isDue other = false)
    (stepped : connectedStep serialize i c.shared pc r = some (s', pc')) :
    Follows i ⟨s', c.procs.set i pc'⟩ := by
  have orderly := before.orderly.next at_i guard stepped
  have listed := before.listed pc at_i
  have elsewhere : isListed pc' = false → Follows i ⟨s', c.procs.set i pc'⟩ := by
    intro unlisted
    refine .ungreeted orderly at_i ?_ ?_ ?_
    · intro connected
      exact absurd (unlisted.symm.trans connected) (by decide)
    · rintro items rfl
      cases unlisted
    · rintro rfl
      cases unlisted
  cases pc with
  | request pc =>
      obtain ⟨-, ⟨-, event, request, rfl, -⟩ | still⟩ :=
        hookStep_cases stepped (before.orderly.told at_i)
      · exact elsewhere rfl
      · exact elsewhere still.unlisted
  | takeSnapshot event msgType => cases stepped; exact elsewhere rfl
  | sendAll event rest msgType => cases rest <;> cases stepped <;> exact elsewhere rfl
  | add lastEventId =>
      cases stepped
      refine .ungreeted orderly at_i (fun _ _ => self_mem_insertSub r.place) ?_ ?_
      · intro items same
        split at same <;> cases same
      · split <;> simp
  | replay =>
      cases stepped
      refine .ungreeted orderly at_i (fun _ => listed rfl) ?_ ?_ <;> simp
  | sendMissed rest =>
      cases rest with
      | nil =>
          cases stepped
          refine .ungreeted orderly at_i (fun _ => listed rfl) ?_ ?_ <;> simp
      | cons event rest =>
          cases stepped
          refine .ungreeted orderly at_i (fun _ still => listed rfl (isOpen_send ▸ still)) ?_ ?_ <;> simp
  | readStore =>
      cases stepped
      refine .ungreeted orderly at_i (fun _ => listed rfl) ?_ (by simp)
      rintro items ⟨⟩
      rfl
  | sendInit items =>
      cases stepped
      have own : (c.procs.set i .keepAlive)[i]? = some .keepAlive := getElem?_set_here at_i
      refine ⟨orderly, fun _ _ _ still => listed rfl (isOpen_send ▸ still), ?_, ?_⟩
      · intro other at_p
        cases own.symm.trans at_p
      · intro _ still
        have was_open : (c.shared.subscriber i).isOpen = true := isOpen_send ▸ still
        obtain rfl := before.held items at_i
        rw [stream_send was_open, view_snoc]
        exact shows_last orderly
  | keepAlive =>
      cases stepped
      by_cases is_open : (c.shared.subscriber i).isOpen = true
      · rw [if_pos is_open] at orderly ⊢
        have own : (c.procs.set i .keepAlive)[i]? = some .keepAlive := getElem?_set_here at_i
        refine ⟨orderly, fun _ _ _ => listed rfl, ?_, ?_⟩
        · intro items at_p
          cases own.symm.trans at_p
        · intro _ _
          exact (before.shows at_i is_open).moved at_i rfl rfl
      · rw [if_neg is_open] at orderly elsewhere ⊢
        exact elsewhere rfl
  | remove => cases stepped; exact elsewhere rfl
  | failWrite t => cases stepped; exact elsewhere rfl
  | finished => cases stepped

theorem isDue_of_isCall (entry : isCall pc = true) : isDue pc = false := by
  cases pc with
  | request pc => cases pc <;> first | rfl | cases entry
  | takeSnapshot _ _ => cases entry
  | sendAll _ _ _ => cases entry
  | _ => rfl

theorem isListed_of_isCall (entry : isCall pc = true) : isListed pc = false := by
  cases pc <;> first | rfl | cases entry

theorem Follows.spawn (before : Follows i c) (entry : isCall pc = true) :
    Follows i ⟨c.shared, c.procs ++ [pc]⟩ := by
  have free := isDue_of_isCall entry
  have unlisted := isListed_of_isCall entry
  have old : ∀ (j : Nat) (q : Pc), (c.procs ++ [pc])[j]? = some q →
      isDue q = true ∨ isListed q = true → c.procs[j]? = some q := by
    intro j q at_j kind
    rcases getElem?_snoc_cases at_j with at_j | rfl
    · exact at_j
    · simp [free, unlisted] at kind
  have known : ∀ q ∈ c.procs ++ [pc], isDue q = true → q ∈ c.procs := by
    intro q mem owes
    rcases List.mem_append.mp mem with mem | new
    · exact mem
    · rw [List.mem_singleton.mp new, free] at owes
      cases owes
  refine ⟨⟨?_, ?_, before.orderly.ids⟩, ?_, ?_, ?_⟩
  · intro j k p q at_j at_k due_p due_q
    exact before.orderly.one j k p q (old j p at_j (.inl due_p)) (old k q at_k (.inl due_q)) due_p due_q
  · intro q mem owes
    exact before.orderly.current q (known q mem owes) owes
  · intro p at_i connected
    exact before.listed p (old i p at_i (.inr connected)) connected
  · intro items at_i
    exact before.held items (old i _ at_i (.inr rfl))
  · intro at_i is_open
    obtain ⟨ids, upToDate, pending⟩ := before.shows (old i _ at_i (.inr rfl)) is_open
    refine ⟨ids, fun none_due => upToDate fun q mem => none_due q (List.mem_append_left _ mem), ?_⟩
    intro q mem event owed
    exact pending q (known q mem (dueTo_isDue owed)) event owed

theorem Follows.next (before : Follows i c) (guard : Serial i c l)
    (moved : (connected serialize).next c l = some d) : Follows i d := by
  rcases next_cases moved with ⟨p, rfl, entry, rfl⟩ | ⟨j, r, p, s', q, rfl, at_j, stepped, rfl⟩
  · exact before.spawn entry
  · have quiet := guard p at_j
    by_cases mine : i = j
    · subst mine
      exact before.own at_j (fun writes => (quiet writes).1) stepped
    · exact before.beside at_j mine quiet stepped

end Runs

/-- A client that has been greeted and whose connection is open shows, cut at 200, exactly what
`GET /api/hooks` answers, whenever no broadcast is due: after any requests and connections, if the store
keeps still while a broadcast is due and while the connection is about to send what it has read. -/
theorem client_shows_store (serialize : Json → String) (i : Nat) (c : Config Shared Pc)
    (reach : Reach (connected serialize) (Serial i) ⟨{}, []⟩ c)
    (greeted : c.procs[i]? = some .keepAlive) (is_open : (c.shared.subscriber i).isOpen = true)
    (settled : ∀ pc ∈ c.procs, isDue pc = false) (now : String) :
    requestStep serialize c.shared.hooks .list now =
      some (c.shared.hooks, .finished ((view (c.shared.subscriber i).stream).take 200)) := by
  have initial : Follows i (⟨{}, []⟩ : Config Shared Pc) := by
    refine ⟨⟨?_, ?_, ?_⟩, ?_, ?_, ?_⟩ <;> simp
  have follows : Follows i c := reach.invariant initial fun _ _ _ before guard moved =>
    before.next guard moved
  have shown := (follows.shows greeted is_open).upToDate fun pc mem => dueTo_none (settled pc mem)
  rw [shown]
  rfl

section Sample

open Scand.Hooks.OnceBroadcast (emptyText firstHook secondHook)

instance : ∀ i c l, Decidable (Serial i c l)
  | _, _, .spawn _ => .isTrue trivial
  | i, c, .act j _ => inferInstanceAs (Decidable (∀ pc ∈ c.procs[j]?, changesStore pc = true →
      (∀ other ∈ c.procs, isDue other = false) ∧ ∀ own ∈ c.procs[i]?, isHolding own = false))

def steps (processes : List Nat) : List (Label Pc Reply) :=
  processes.map fun i => .act i { now := "2026-10-02T10:00:00Z" }

/-- A client connects while the first entry is stored and not yet broadcast; then comes a second one. -/
def connectedBetween : List (Label Pc Reply) :=
  .spawn (.request (.hook (.object []))) :: .spawn (.add 0) :: steps [0, 1, 1, 0, 0, 1, 0, 0, 0] ++
    .spawn (.request (.notify (.object []))) :: steps [2, 2, 2, 2, 2, 2, 2]

def isGreeted : Pc → Bool
  | .keepAlive => true
  | _ => false

/-- Client `i` has been greeted, and nothing is on its way to it. -/
def Settled (i : Nat) (c : Config Shared Pc) : Prop :=
  c.procs[i]?.any isGreeted = true ∧ (c.shared.subscriber i).isOpen = true ∧
    ∀ pc ∈ c.procs, isDue pc = false

instance (i : Nat) (c : Config Shared Pc) : Decidable (Settled i c) :=
  inferInstanceAs (Decidable (_ ∧ _ ∧ _))

private theorem greeted_of_settled {i : Nat} {c : Config Shared Pc} (settled : Settled i c) :
    c.procs[i]? = some .keepAlive := by
  obtain ⟨pc, at_i, greeted⟩ := (Option.any_eq_true _ _).mp settled.1
  cases pc <;> first | exact at_i | cases greeted

theorem client_shows_store_two : ∃ c, Reach (connected emptyText) (Serial 1) ⟨{}, []⟩ c ∧
    (c.shared.subscriber 1).stream = [.init [firstHook], .event (hookEvent firstHook),
      .event (hookEvent secondHook)] ∧
    requestStep emptyText c.shared.hooks .list "" =
      some (c.shared.hooks, .finished [secondHook, firstHook]) := by
  obtain ⟨c, reach, passed⟩ := reach_of_run_test (M := connected emptyText) (G := Serial 1)
    (g := fun c l => decide (Serial 1 c l)) (c := ⟨{}, []⟩) connectedBetween
    (fun c => decide (Settled 1 c ∧ (c.shared.subscriber 1).stream = [.init [firstHook],
      .event (hookEvent firstHook), .event (hookEvent secondHook)])) (fun _ _ => of_decide_eq_true)
    (by decide)
  obtain ⟨settled, stream⟩ := of_decide_eq_true passed
  refine ⟨c, reach, stream, ?_⟩
  have shows := client_shows_store emptyText 1 c reach (greeted_of_settled settled) settled.2.1
    settled.2.2 ""
  rw [shows, stream]
  rfl

/-- A hook that is stored and broadcast between the reading of the store and the init event is lost to
the client, although nothing is on its way any more. -/
theorem hook_lost_between : ∃ c, Reach (connected emptyText) anyLabel ⟨{}, []⟩ c ∧ Settled 0 c ∧
    (c.shared.subscriber 0).stream = [.event (hookEvent firstHook), .init []] ∧
    view (c.shared.subscriber 0).stream = [] ∧ c.shared.hooks.store.last 200 = [firstHook] := by
  obtain ⟨c, reach, passed⟩ := reach_of_run_test (M := connected emptyText) (G := anyLabel)
    (g := fun _ _ => true) (c := ⟨{}, []⟩)
    (.spawn (.add 0) :: steps [0, 0] ++ .spawn (.request (.hook (.object []))) ::
      steps [1, 1, 1, 1, 1, 1, 0])
    (fun c => decide (Settled 0 c ∧ (c.shared.subscriber 0).stream =
      [.event (hookEvent firstHook), .init []] ∧ c.shared.hooks.store.last 200 = [firstHook]))
    (fun _ _ _ => trivial) (by decide)
  obtain ⟨settled, stream, stored⟩ := of_decide_eq_true passed
  exact ⟨c, reach, settled, stream, by rw [stream]; rfl, stored⟩

end Sample

end Scand.Hooks.ClientList
