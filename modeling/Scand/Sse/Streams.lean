/- path: Scand/Sse/Streams
   layer: results
   digest: What is on its way to a subscriber, how each step of the broker moves it onto the stream, and
   how the ids are numbered. -/

import Scand.Sse.Broker
import Mathlib.Data.List.Range

set_option autoImplicit false
set_option relaxedAutoImplicit false

namespace Scand.Sse.Streams

open Scand.Foundation.Interleaving
open Scand.Sse.Broker

def broadcasting (s : Shared) (t : Nat) : Pc → List Nat
  | .takeSnapshot e => if t ∈ s.subs then [e.id] else []
  | .sendAll e rest => if t ∈ rest then [e.id] else []
  | _ => []

def replaying (s : Shared) (t j : Nat) : Pc → List Nat
  | .replay lastEventId => if j = t then (missed s lastEventId).map HistoryEntry.id else []
  | .sendMissed rest => if j = t then rest.map HistoryEntry.id else []
  | _ => []

/-- The ids that process `j` at a place is still going to send to subscriber `t`. -/
def onItsWay (s : Shared) (t j : Nat) (pc : Pc) : List Nat := broadcasting s t pc ++ replaying s t j pc

def accepted (s : Shared) (t i : Nat) (chunk : Chunk) : List Nat :=
  if i = t ∧ chunk.text ≠ "" ∧ (s.subscriber t).isOpen = true then chunk.id.toList else []

/-- The id that the next step of process `j` puts on the stream of subscriber `t`. -/
def appended (s : Shared) (t j : Nat) : Pc → List Nat
  | .sendAll e (i :: _) => accepted s t i e.chunk
  | .sendMissed (e :: _) => accepted s t j e.chunk
  | _ => []

theorem subscriber_send (s : Shared) (t i : Nat) (chunk : Chunk) :
    (send s i chunk).subscriber t =
      if i = t then (s.subscriber t).send chunk else s.subscriber t := by
  by_cases same : i = t
  · subst same
    simp [send]
  · simp [send, same, Ne.symm same]

theorem subscriber_close (s : Shared) (t i : Nat) :
    (close s i).subscriber t = if i = t then (s.subscriber t).close else s.subscriber t := by
  by_cases same : i = t
  · subst same
    simp [close]
  · simp [close, same, Ne.symm same]

theorem sentIds_send (s : Shared) (t i : Nat) (chunk : Chunk) :
    sentIds (send s i chunk) t = sentIds s t ++ accepted s t i chunk := by
  unfold sentIds accepted
  rw [subscriber_send]
  by_cases same : i = t
  · by_cases refused : chunk.text = "" ∨ (s.subscriber t).isOpen = false
    · rcases refused with empty | closed
      · simp [SseSubscriber.send, empty]
      · simp [SseSubscriber.send, closed]
    · have taken : chunk.text ≠ "" ∧ (s.subscriber t).isOpen = true := by simpa using refused
      cases named : chunk.id <;> simp [SseSubscriber.send, same, taken, named]
  · simp [same]

@[simp] theorem send_isOpen (s : Shared) (t i : Nat) (chunk : Chunk) :
    ((send s i chunk).subscriber t).isOpen = (s.subscriber t).isOpen := by
  rw [subscriber_send]
  split
  · unfold SseSubscriber.send
    split <;> rfl
  · rfl

@[simp] theorem sentIds_close (s : Shared) (t i : Nat) : sentIds (close s i) t = sentIds s t := by
  unfold sentIds
  rw [subscriber_close]
  split <;> rfl

section Steps

variable {t j : Nat} {s s' : Shared} {pc pc' : Pc} {r : Reply}

/-- What a step does to subscriber `t` that neither numbers an event nor adds the subscriber. -/
structure Moves (t j : Nat) (s : Shared) (pc : Pc) (s' : Shared) (pc' : Pc) : Prop where
  sent : sentIds s' t = sentIds s t ++ appended s t j pc
  own : (appended s t j pc ++ onItsWay s' t j pc').Sublist (onItsWay s t j pc)
  subs : t ∈ s'.subs → t ∈ s.subs
  history : s'.history = s.history
  nextId : s'.nextId = s.nextId

theorem accepted_sublist (e : HistoryEntry) (i : Nat) :
    (accepted s t i e.chunk).Sublist (if i = t then [e.id] else []) := by
  unfold accepted
  by_cases same : i = t
  · simp only [same, true_and, if_true]
    split
    · exact List.Sublist.refl _
    · exact List.nil_sublist _
  · simp [same]

theorem accepted_unnamed (i : Nat) (text : String) : accepted s t i { text := text } = [] := by
  simp [accepted]

private theorem broadcast_moves (stepped : broadcastStep s pc = some (s', pc'))
    (not_new : ∀ eventName data, pc ≠ .assignId eventName data)
    (distinct : ∀ e rest, pc = .sendAll e rest → rest.Nodup) : Moves t j s pc s' pc' := by
  cases pc <;> simp only [broadcastStep, Option.some.injEq, Prod.mk.injEq, reduceCtorEq] at stepped
  case assignId eventName data => exact absurd rfl (not_new eventName data)
  case takeSnapshot e =>
    obtain ⟨rfl, rfl⟩ := stepped
    exact ⟨by simp [appended], by simp [appended, onItsWay, broadcasting, replaying], id, rfl, rfl⟩
  case sendAll e rest =>
    cases rest with
    | nil =>
        cases stepped
        exact ⟨by simp [appended], by simp [appended, onItsWay, broadcasting, replaying], id, rfl,
          rfl⟩
    | cons i rest =>
        cases stepped
        refine ⟨sentIds_send _ _ _ _, ?_, id, rfl, rfl⟩
        have once := (List.nodup_cons.mp (distinct e (i :: rest) rfl)).1
        have shorter := accepted_sublist (s := s) (t := t) e i
        simp only [appended, onItsWay, broadcasting, replaying, List.append_nil, List.mem_cons]
        by_cases same : i = t
        · subst same
          simpa [once] using shorter
        · simpa [same, Ne.symm same] using shorter

private theorem connection_moves (stepped : connectionStep j s pc r = some (s', pc'))
    (not_added : ∀ lastEventId, pc = .add lastEventId → j ≠ t) : Moves t j s pc s' pc' := by
  cases pc <;> simp only [connectionStep, Option.some.injEq, Prod.mk.injEq, reduceCtorEq] at stepped
  case add lastEventId =>
    obtain ⟨rfl, rfl⟩ := stepped
    have apart := not_added lastEventId rfl
    refine ⟨?_, ?_, ?_, rfl, rfl⟩
    · simp [sentIds, appended, Ne.symm apart]
    · split <;> simp [appended, onItsWay, broadcasting, replaying, apart]
    · unfold insertSub
      split
      · exact id
      · intro mem
        rcases List.mem_append.mp mem with front | back
        · exact List.mem_of_mem_take front
        · rcases List.mem_cons.mp back with same | back
          · exact absurd same.symm apart
          · exact List.mem_of_mem_drop back
  case sendMissed rest =>
    cases rest with
    | nil =>
        cases stepped
        exact ⟨by simp [appended], by simp [appended, onItsWay, broadcasting, replaying], id, rfl,
          rfl⟩
    | cons e rest =>
        cases stepped
        refine ⟨sentIds_send _ _ _ _, ?_, id, rfl, rfl⟩
        have shorter := accepted_sublist (s := s) (t := t) e j
        simp only [appended, onItsWay, broadcasting, replaying, List.nil_append]
        by_cases same : j = t
        · rw [if_pos same] at shorter ⊢
          simpa [same] using shorter.append (List.Sublist.refl (rest.map HistoryEntry.id))
        · simpa [same] using shorter
  case sendResumed =>
    obtain ⟨rfl, rfl⟩ := stepped
    cases r.resumed with
    | none => exact ⟨by simp [appended], by simp [appended, onItsWay, broadcasting, replaying], id,
        rfl, rfl⟩
    | some body =>
        exact ⟨by simp [appended, sentIds_send, accepted_unnamed],
          by simp [appended, onItsWay, broadcasting, replaying], id, rfl, rfl⟩
  case keepAlive =>
    split at stepped <;> cases stepped
    · exact ⟨by simp [appended, sentIds_send, accepted_unnamed],
        by simp [appended, onItsWay, broadcasting, replaying], id, rfl, rfl⟩
    · exact ⟨by simp [appended], by simp [appended, onItsWay, broadcasting, replaying], id, rfl,
        rfl⟩
  case remove =>
    obtain ⟨rfl, rfl⟩ := stepped
    exact ⟨by simp [appended, sentIds], by simp [appended, onItsWay, broadcasting, replaying],
      List.mem_of_mem_erase, rfl, rfl⟩
  case replay lastEventId =>
    obtain ⟨rfl, rfl⟩ := stepped
    exact ⟨by simp [appended], by simp [appended, onItsWay, broadcasting, replaying], id, rfl, rfl⟩
  case sendInit =>
    obtain ⟨rfl, rfl⟩ := stepped
    exact ⟨by simp [appended, sentIds_send, accepted_unnamed],
      by simp [appended, onItsWay, broadcasting, replaying], id, rfl, rfl⟩

private theorem close_moves (stepped : closeStep s pc = some (s', pc')) : Moves t j s pc s' pc' := by
  cases pc <;> simp only [closeStep, Option.some.injEq, Prod.mk.injEq, reduceCtorEq] at stepped
  case closeEach rest =>
    cases rest <;> cases stepped <;>
      exact ⟨by simp [appended], by simp [appended, onItsWay, broadcasting, replaying], id, rfl, rfl⟩
  case closeAll =>
    obtain ⟨rfl, rfl⟩ := stepped
    exact ⟨by simp [appended, sentIds], by simp [appended, onItsWay, broadcasting, replaying],
      (fun mem => by cases mem), rfl, rfl⟩
  case failWrite i =>
    obtain ⟨rfl, rfl⟩ := stepped
    exact ⟨by simp [appended], by simp [appended, onItsWay, broadcasting, replaying], id, rfl, rfl⟩

theorem broker_moves (stepped : broker.step j s pc r = some (s', pc'))
    (not_new : ∀ eventName data, pc ≠ .assignId eventName data)
    (not_added : ∀ lastEventId, pc = .add lastEventId → j ≠ t)
    (distinct : ∀ e rest, pc = .sendAll e rest → rest.Nodup) : Moves t j s pc s' pc' := by
  rcases broker_step stepped with broadcast | connection | closed
  · exact broadcast_moves broadcast not_new distinct
  · exact connection_moves connection not_added
  · exact close_moves closed

end Steps

section Numbers

def carriedEntries : Pc → List HistoryEntry
  | .takeSnapshot e | .sendAll e _ => [e]
  | .sendMissed rest => rest
  | _ => []

/-- The history as it is kept: the last events, under consecutive ids up to the next one. -/
structure Held (s : Shared) : Prop where
  first : 1 ≤ s.nextId
  size : s.history.length = min (s.nextId - 1) historyMax
  ids : s.history.map HistoryEntry.id = List.range' (s.nextId - s.history.length) s.history.length
  payload : ∀ e ∈ s.history, e.payload ≠ ""

theorem eventText_ne_empty (eventName : String) (id : Nat) (data : String) :
    eventText eventName id data ≠ "" := by
  intro empty
  have last : "\n\n" = "" := (String.append_eq_empty_iff.mp empty).2
  exact absurd last (by decide)

theorem Held.mem_ids {s : Shared} (held : Held s) {m : Nat} :
    m ∈ s.history.map HistoryEntry.id ↔ 1 ≤ m ∧ m < s.nextId ∧ s.nextId ≤ m + historyMax := by
  rw [held.ids, List.mem_range'_1]
  have first := held.first
  have size := held.size
  unfold historyMax at size ⊢
  omega

theorem Held.increasing {s : Shared} (held : Held s) :
    (s.history.map HistoryEntry.id).Pairwise (· < ·) := by
  rw [held.ids]
  exact List.pairwise_lt_range'

def newEntry (s : Shared) (eventName data : String) : HistoryEntry where
  id := s.nextId
  eventName := eventName
  payload := eventText eventName s.nextId data

def grownHistory (s : Shared) (eventName data : String) : List HistoryEntry :=
  s.history ++ [newEntry s eventName data]

theorem broadcastWithId_next (s : Shared) (eventName data : String) :
    broadcastWithId s eventName data 0 =
      ({ s with
          nextId := s.nextId + 1
          history := (grownHistory s eventName data).drop
            ((grownHistory s eventName data).length - historyMax) },
        newEntry s eventName data) := rfl

theorem mem_history_assign {s : Shared} {eventName data : String} {e : HistoryEntry}
    (mem : e ∈ (broadcastWithId s eventName data 0).1.history) :
    e ∈ s.history ∨ e = newEntry s eventName data := by
  simp only [broadcastWithId_next] at mem
  have grown : e ∈ grownHistory s eventName data := List.mem_of_mem_drop mem
  rcases List.mem_append.mp grown with old | new
  · exact Or.inl old
  · exact Or.inr (List.mem_singleton.mp new)

theorem Held.assign {s : Shared} (held : Held s) (eventName data : String) :
    Held (broadcastWithId s eventName data 0).1 := by
  have first := held.first
  have size := held.size
  have length : (grownHistory s eventName data).length = s.history.length + 1 := by
    simp [grownHistory]
  have grown : (grownHistory s eventName data).map HistoryEntry.id =
      List.range' (s.nextId - s.history.length) (s.history.length + 1) := by
    rw [grownHistory, List.map_append, held.ids, List.range'_1_concat, List.map_singleton]
    have last : s.nextId - s.history.length + s.history.length = s.nextId := by omega
    rw [last]
    rfl
  have start : s.nextId - s.history.length + (s.history.length + 1 - historyMax) =
      s.nextId + 1 - (s.history.length + 1 - (s.history.length + 1 - historyMax)) := by
    unfold historyMax at size ⊢
    omega
  refine ⟨Nat.le_add_left _ _, ?_, ?_, fun e mem => ?_⟩
  · rw [broadcastWithId_next]
    simp only [List.length_drop, length]
    unfold historyMax at size ⊢
    omega
  · rw [broadcastWithId_next]
    simp only [List.map_drop, grown, List.drop_range', List.length_drop, length, Nat.mul_one]
    rw [start]
  · rcases mem_history_assign mem with old | rfl
    · exact held.payload e old
    · exact eventText_ne_empty eventName s.nextId data

end Numbers

/-- What holds of the broker in every interleaving. -/
structure Numbered (c : Config Shared Pc) : Prop where
  held : Held c.shared
  sent : ∀ t, ∀ n ∈ sentIds c.shared t, 0 < n ∧ n < c.shared.nextId
  entries : ∀ pc ∈ c.procs, ∀ e ∈ carriedEntries pc,
    0 < e.id ∧ e.id < c.shared.nextId ∧ e.payload ≠ ""
  subs : c.shared.subs.Nodup
  rest : ∀ pc ∈ c.procs, ∀ e rest, pc = .sendAll e rest → rest.Nodup
  missed : ∀ pc ∈ c.procs, ∀ rest, pc = .sendMissed rest →
    (rest.map HistoryEntry.id).Pairwise (· < ·)
  removed : ∀ t, c.procs[t]? = some .remove → (c.shared.subscriber t).isOpen = false

section Invariant

variable {t j : Nat} {s s' : Shared} {pc pc' : Pc} {r : Reply} {c d : Config Shared Pc}
  {l : Label Pc Reply}

theorem nodup_insertSub {subs : List Nat} (distinct : subs.Nodup) (place i : Nat) :
    (insertSub subs place i).Nodup := by
  unfold insertSub
  split
  · exact distinct
  · rename_i fresh
    have parts : (subs.take place ++ subs.drop place).Nodup := by
      rw [List.take_append_drop]
      exact distinct
    refine (List.perm_middle.nodup_iff).mpr (List.nodup_cons.mpr ⟨?_, parts⟩)
    rw [List.take_append_drop]
    exact fresh

/-- What a step does to the set, the numbers and the entries that a process carries. -/
structure Carries (j : Nat) (s : Shared) (pc : Pc) (s' : Shared) (pc' : Pc) : Prop where
  subs : s.subs.Nodup → s'.subs.Nodup
  entries : ∀ e ∈ carriedEntries pc', e ∈ carriedEntries pc ∨ e ∈ s.history ∨
    (e.id = s.nextId ∧ s'.nextId = s.nextId + 1 ∧ e.payload ≠ "")
  rest : ∀ e rest, pc' = .sendAll e rest → rest = s.subs ∨ ∃ i, pc = .sendAll e (i :: rest)
  missed : ∀ rest, pc' = .sendMissed rest → rest.Sublist s.history ∨ ∃ e, pc = .sendMissed (e :: rest)
  removed : pc' = .remove → (s'.subscriber j).isOpen = false
  closed : ∀ t, (s.subscriber t).isOpen = false → (∀ k, pc = .add k → j ≠ t) →
    (s'.subscriber t).isOpen = false

private theorem broadcast_carries (stepped : broadcastStep s pc = some (s', pc')) :
    Carries j s pc s' pc' := by
  cases pc <;> simp only [broadcastStep, Option.some.injEq, Prod.mk.injEq, reduceCtorEq] at stepped
  case assignId eventName data =>
    rw [broadcastWithId_next] at stepped
    obtain ⟨rfl, rfl⟩ := stepped
    refine ⟨id, fun e mem => Or.inr (Or.inr ?_), by simp, by simp, by simp, fun _ closed _ => closed⟩
    rw [List.mem_singleton.mp mem]
    exact ⟨rfl, rfl, eventText_ne_empty eventName s.nextId data⟩
  case takeSnapshot e =>
    obtain ⟨rfl, rfl⟩ := stepped
    refine ⟨id, fun _ mem => Or.inl mem, ?_, by simp, by simp, fun _ closed _ => closed⟩
    rintro _ _ ⟨⟩
    exact Or.inl rfl
  case sendAll e rest =>
    cases rest with
    | nil =>
        cases stepped
        exact ⟨id, by simp [carriedEntries], by simp, by simp, by simp, fun _ closed _ => closed⟩
    | cons i rest =>
        cases stepped
        refine ⟨id, fun _ mem => Or.inl mem, ?_, by simp, by simp, fun _ closed _ => ?_⟩
        · rintro _ _ ⟨⟩
          exact Or.inr ⟨i, rfl⟩
        · rw [send_isOpen]
          exact closed

private theorem connection_carries (stepped : connectionStep j s pc r = some (s', pc')) :
    Carries j s pc s' pc' := by
  cases pc <;> simp only [connectionStep, Option.some.injEq, Prod.mk.injEq, reduceCtorEq] at stepped
  case add lastEventId =>
    obtain ⟨rfl, rfl⟩ := stepped
    refine ⟨fun distinct => nodup_insertSub distinct _ _, ?_, ?_, ?_, ?_, fun t closed apart => ?_⟩
    · split <;> simp [carriedEntries]
    · split <;> simp
    · split <;> simp
    · split <;> simp
    · simpa [Function.update_of_ne (apart lastEventId rfl).symm] using closed
  case replay lastEventId =>
    obtain ⟨rfl, rfl⟩ := stepped
    refine ⟨id, fun e mem => Or.inr (Or.inl (List.mem_of_mem_filter mem)), by simp, ?_, by simp,
      fun _ closed _ => closed⟩
    rintro _ ⟨⟩
    exact Or.inl List.filter_sublist
  case sendMissed rest =>
    cases rest with
    | nil =>
        cases stepped
        exact ⟨id, by simp [carriedEntries], by simp, by simp, by simp, fun _ closed _ => closed⟩
    | cons e rest =>
        cases stepped
        refine ⟨id, fun _ mem => Or.inl (List.mem_cons_of_mem _ mem), by simp, ?_, by simp,
          fun _ closed _ => ?_⟩
        · rintro _ ⟨⟩
          exact Or.inr ⟨e, rfl⟩
        · rw [send_isOpen]
          exact closed
  case sendResumed =>
    obtain ⟨rfl, rfl⟩ := stepped
    refine ⟨?_, by simp [carriedEntries], by simp, by simp, by simp, fun _ closed _ => ?_⟩
    · split <;> exact id
    · split
      · rw [send_isOpen]
        exact closed
      · exact closed
  case sendInit =>
    obtain ⟨rfl, rfl⟩ := stepped
    refine ⟨id, by simp [carriedEntries], by simp, by simp, by simp, fun _ closed _ => ?_⟩
    rw [send_isOpen]
    exact closed
  case keepAlive =>
    split at stepped
    · cases stepped
      refine ⟨id, by simp [carriedEntries], by simp, by simp, by simp, fun _ closed _ => ?_⟩
      rw [send_isOpen]
      exact closed
    · rename_i closed
      cases stepped
      exact ⟨id, by simp [carriedEntries], by simp, by simp, fun _ => Bool.eq_false_of_not_eq_true closed,
        fun _ closed _ => closed⟩
  case remove =>
    obtain ⟨rfl, rfl⟩ := stepped
    exact ⟨fun distinct => distinct.erase _, by simp [carriedEntries], by simp, by simp, by simp,
      fun _ closed _ => closed⟩

private theorem close_carries (stepped : closeStep s pc = some (s', pc')) :
    Carries j s pc s' pc' := by
  have closes : ∀ i t, (s.subscriber t).isOpen = false →
      ((close s i).subscriber t).isOpen = false := by
    intro i t closed
    rw [subscriber_close]
    split
    · rfl
    · exact closed
  cases pc <;> simp only [closeStep, Option.some.injEq, Prod.mk.injEq, reduceCtorEq] at stepped
  case failWrite i =>
    obtain ⟨rfl, rfl⟩ := stepped
    exact ⟨id, by simp [carriedEntries], by simp, by simp, by simp, fun t closed _ => closes i t closed⟩
  case closeAll =>
    obtain ⟨rfl, rfl⟩ := stepped
    exact ⟨fun _ => List.nodup_nil, by simp [carriedEntries], by simp, by simp, by simp,
      fun _ closed _ => closed⟩
  case closeEach rest =>
    cases rest with
    | nil =>
        cases stepped
        exact ⟨id, by simp [carriedEntries], by simp, by simp, by simp, fun _ closed _ => closed⟩
    | cons i rest =>
        cases stepped
        exact ⟨id, by simp [carriedEntries], by simp, by simp, by simp,
          fun t closed _ => closes i t closed⟩

theorem broker_carries (stepped : broker.step j s pc r = some (s', pc')) :
    Carries j s pc s' pc' := by
  rcases broker_step stepped with broadcast | connection | closed
  · exact broadcast_carries broadcast
  · exact connection_carries connection
  · exact close_carries closed

theorem mem_appended {n : Nat} (mem : n ∈ appended s t j pc) : ∃ e ∈ carriedEntries pc, e.id = n := by
  cases pc
  case sendAll e rest =>
    cases rest with
    | nil => cases mem
    | cons i rest =>
        have sent := (accepted_sublist e i).subset mem
        exact ⟨e, List.mem_cons_self, by split at sent <;> simp_all⟩
  case sendMissed rest =>
    cases rest with
    | nil => cases mem
    | cons e rest =>
        have sent := (accepted_sublist e j).subset mem
        exact ⟨e, List.mem_cons_self, by split at sent <;> simp_all⟩
  all_goals cases mem

theorem broker_numbers (numbered : Numbered c) (at_j : c.procs[j]? = some pc)
    (stepped : broker.step j c.shared pc r = some (s', pc')) :
    Held s' ∧ c.shared.nextId ≤ s'.nextId ∧ (∀ t, ∀ n ∈ sentIds s' t, 0 < n ∧ n < s'.nextId) := by
  have mem := List.mem_of_getElem? at_j
  by_cases new : ∃ eventName data, pc = .assignId eventName data
  · obtain ⟨eventName, data, rfl⟩ := new
    cases stepped
    refine ⟨numbered.held.assign eventName data, Nat.le_succ _, fun t n sent => ?_⟩
    have before := numbered.sent t n sent
    exact ⟨before.1, Nat.lt_succ_of_lt before.2⟩
  · have not_new : ∀ eventName data, pc ≠ .assignId eventName data := by
      intro eventName data same
      exact new ⟨eventName, data, same⟩
    have moves : ∀ t, (∀ k, pc = .add k → j ≠ t) → Moves t j c.shared pc s' pc' :=
      fun t apart => broker_moves stepped not_new apart (numbered.rest pc mem)
    have other := moves (j + 1) fun _ _ => Nat.ne_of_lt (Nat.lt_succ_self j)
    refine ⟨?_, other.nextId.ge, fun t n sent => ?_⟩
    · obtain ⟨first, size, ids, payload⟩ := numbered.held
      exact ⟨by rw [other.nextId]; exact first,
        by rw [other.nextId, other.history]; exact size,
        by rw [other.nextId, other.history]; exact ids,
        by rw [other.history]; exact payload⟩
    · rw [other.nextId]
      by_cases added : ∃ k, pc = .add k ∧ j = t
      · obtain ⟨k, rfl, rfl⟩ := added
        cases stepped
        simp [sentIds] at sent
      · have moved := moves t fun k is_add same => added ⟨k, is_add, same⟩
        rw [moved.sent, List.mem_append] at sent
        rcases sent with old | appended
        · exact numbered.sent t n old
        · obtain ⟨e, carried, rfl⟩ := mem_appended appended
          have before := numbered.entries pc mem e carried
          exact ⟨before.1, before.2.1⟩

theorem numbered_initial : Numbered ⟨{}, []⟩ where
  held := ⟨Nat.le_refl 1, rfl, rfl, by simp⟩
  sent := by simp [sentIds]
  entries := by simp
  subs := List.nodup_nil
  rest := by simp
  missed := by simp
  removed := by simp

theorem Numbered.next (numbered : Numbered c) (moved : broker.next c l = some d) : Numbered d := by
  rcases next_cases moved with ⟨p, rfl, entry, rfl⟩ | ⟨i, r, p, s, q, rfl, at_i, stepped, rfl⟩
  · have plain : carriedEntries p = [] ∧ (∀ e rest, p ≠ .sendAll e rest) ∧
        (∀ rest, p ≠ .sendMissed rest) ∧ p ≠ .remove := by
      cases p <;> first | (cases entry; done) | exact ⟨rfl, by simp⟩
    obtain ⟨none, no_send, no_missed, no_remove⟩ := plain
    refine ⟨numbered.held, numbered.sent, forall_mem_snoc numbered.entries (by simp [none]),
      numbered.subs, forall_mem_snoc numbered.rest fun e rest same => absurd same (no_send e rest),
      forall_mem_snoc numbered.missed fun rest same => absurd same (no_missed rest), ?_⟩
    intro t at_t
    rcases getElem?_snoc_cases at_t with old | same
    · exact numbered.removed t old
    · exact absurd same.symm no_remove
  · have carries := broker_carries stepped
    have mem := List.mem_of_getElem? at_i
    obtain ⟨held, grown, sent⟩ := broker_numbers numbered at_i stepped
    refine ⟨held, sent, ?_, carries.subs numbered.subs, ?_, ?_, ?_⟩
    · refine forall_mem_set (fun p' mem' e carried => ?_) fun e carried => ?_
      · obtain ⟨positive, small, payload⟩ := numbered.entries p' mem' e carried
        exact ⟨positive, Nat.lt_of_lt_of_le small grown, payload⟩
      · rcases carries.entries e carried with old | stored | new
        · obtain ⟨positive, small, payload⟩ := numbered.entries p mem e old
          exact ⟨positive, Nat.lt_of_lt_of_le small grown, payload⟩
        · have number := numbered.held.mem_ids.mp (List.mem_map_of_mem stored)
          exact ⟨number.1, Nat.lt_of_lt_of_le number.2.1 grown, numbered.held.payload e stored⟩
        · obtain ⟨number, next, payload⟩ := new
          have first := numbered.held.first
          exact ⟨by omega, by simp only; omega, payload⟩
    · refine forall_mem_set numbered.rest fun e rest same => ?_
      rcases carries.rest e rest same with rfl | ⟨i, before⟩
      · exact numbered.subs
      · exact (List.nodup_cons.mp (numbered.rest p mem e (i :: rest) before)).2
    · refine forall_mem_set numbered.missed fun rest same => ?_
      rcases carries.missed rest same with held_rest | ⟨e, before⟩
      · exact numbered.held.increasing.sublist (held_rest.map HistoryEntry.id)
      · exact (List.pairwise_cons.mp (numbered.missed p mem (e :: rest) before)).2
    · intro t at_t
      rcases getElem?_set_cases at_t with ⟨rfl, same⟩ | ⟨apart, before⟩
      · exact carries.removed same.symm
      · exact carries.closed t (numbered.removed t before) fun _ _ => apart

end Invariant

end Scand.Sse.Streams
