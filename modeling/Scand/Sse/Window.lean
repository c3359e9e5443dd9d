/- path: Scand/Sse/Window
   layer: results
   digest: What the history holds after any number of broadcasts, and what a replay sends from it. -/

import Scand.Sse.Streams

set_option autoImplicit false
set_option relaxedAutoImplicit false

namespace Scand.Sse.Window

open Scand.Foundation.Interleaving
open Scand.Sse.Broker
open Scand.Sse.Streams

/-- A whole call of `broadcast`, with the entry whose text it sends. -/
def broadcast (s : Shared) (eventName data : String) : Shared × HistoryEntry :=
  let (s, e) := broadcastWithId s eventName data 0
  (s.subs.foldl (fun s i => send s i e.chunk) s, e)

def broadcastAll : List (String × String) → Shared → Shared × List HistoryEntry
  | [], s => (s, [])
  | (eventName, data) :: events, s =>
      let (s, e) := broadcast s eventName data
      let (s, sent) := broadcastAll events s
      (s, e :: sent)

/-- The texts that `replay_to` sends to its subscriber. -/
def replayTo (s : Shared) (lastEventId : Int) : List Chunk :=
  if lastEventId ≤ 0 then [] else (missed s lastEventId).map HistoryEntry.chunk

def replay (s : Shared) (i : Nat) (lastEventId : Int) : Shared :=
  (replayTo s lastEventId).foldl (fun s chunk => send s i chunk) s

theorem drop_snoc_window {α : Type} (l : List α) (x : α) (m : Nat) :
    (l.drop (l.length - m) ++ [x]).drop ((l.drop (l.length - m) ++ [x]).length - m) =
      (l ++ [x]).drop ((l ++ [x]).length - m) := by
  have whole : l.drop (l.length - m) ++ [x] = (l ++ [x]).drop (l.length - m) :=
    (List.drop_append_of_le_length (Nat.sub_le _ _)).symm
  rw [whole, List.drop_drop]
  have lengths : ((l ++ [x]).drop (l.length - m)).length = l.length + 1 - (l.length - m) := by
    simp
  have index : l.length - m + (((l ++ [x]).drop (l.length - m)).length - m) =
      (l ++ [x]).length - m := by
    rw [lengths, List.length_append, List.length_singleton]
    omega
  rw [index]

/-- The history is the end of everything sent so far, which is numbered from 1 on. -/
structure Windowed (s : Shared) (sent : List HistoryEntry) : Prop where
  nextId : s.nextId = sent.length + 1
  ids : sent.map HistoryEntry.id = List.range' 1 sent.length
  history : s.history = sent.drop (sent.length - historyMax)

section Broadcasts

variable {s : Shared} {sent : List HistoryEntry}

theorem sends_frame (e : HistoryEntry) (subs : List Nat) (s : Shared) :
    (subs.foldl (fun s i => send s i e.chunk) s).nextId = s.nextId ∧
      (subs.foldl (fun s i => send s i e.chunk) s).history = s.history := by
  induction subs generalizing s with
  | nil => exact ⟨rfl, rfl⟩
  | cons i subs ih =>
      rw [List.foldl_cons]
      exact ih (send s i e.chunk)

theorem broadcast_nextId (s : Shared) (eventName data : String) :
    (broadcast s eventName data).1.nextId = s.nextId + 1 :=
  (sends_frame _ _ _).1

theorem broadcast_history (s : Shared) (eventName data : String) :
    (broadcast s eventName data).1.history =
      (grownHistory s eventName data).drop
        ((grownHistory s eventName data).length - historyMax) := by
  have kept : (broadcast s eventName data).1.history =
      (broadcastWithId s eventName data 0).1.history := (sends_frame _ _ _).2
  rw [kept, broadcastWithId_next]

theorem Windowed.broadcast (windowed : Windowed s sent) (eventName data : String) :
    Windowed (broadcast s eventName data).1 (sent ++ [(broadcast s eventName data).2]) := by
  have entry : (Window.broadcast s eventName data).2 = newEntry s eventName data := rfl
  have number : (newEntry s eventName data).id = sent.length + 1 := windowed.nextId
  refine ⟨?_, ?_, ?_⟩
  · rw [broadcast_nextId, windowed.nextId, List.length_append, List.length_singleton]
  · rw [entry, List.map_append, windowed.ids, List.map_singleton, number, List.length_append,
      List.length_singleton, List.range'_1_concat, Nat.add_comm 1]
  · rw [broadcast_history, grownHistory, windowed.history, entry]
    exact drop_snoc_window sent (newEntry s eventName data) historyMax

theorem Windowed.broadcastAll (windowed : Windowed s sent) (events : List (String × String)) :
    Windowed (broadcastAll events s).1 (sent ++ (broadcastAll events s).2) := by
  induction events generalizing s sent with
  | nil =>
      have same : sent ++ (Window.broadcastAll [] s).2 = sent := List.append_nil sent
      rw [same]
      exact windowed
  | cons event events ih =>
      obtain ⟨eventName, data⟩ := event
      have next := ih (windowed.broadcast eventName data)
      rw [List.append_assoc] at next
      exact next

def numberedEntry (numbered : (String × String) × Nat) : HistoryEntry where
  id := numbered.2
  eventName := numbered.1.1
  payload := eventText numbered.1.1 numbered.2 numbered.1.2

theorem broadcastAll_sent (events : List (String × String)) (s : Shared) :
    (broadcastAll events s).2 = (events.zipIdx s.nextId).map numberedEntry := by
  induction events generalizing s with
  | nil => rfl
  | cons event events ih =>
      obtain ⟨eventName, data⟩ := event
      have rest := ih (broadcast s eventName data).1
      rw [broadcast_nextId] at rest
      simp only [List.zipIdx_cons, List.map_cons]
      rw [← rest]
      rfl

end Broadcasts

section Held

variable {s : Shared} {sent : List HistoryEntry}

theorem Windowed.history_ids (windowed : Windowed s sent) :
    s.history.map HistoryEntry.id =
      List.range' (max 1 (sent.length - 499)) (min sent.length historyMax) := by
  have start : 1 + (sent.length - historyMax) = max 1 (sent.length - 499) := by
    unfold historyMax
    omega
  have size : sent.length - (sent.length - historyMax) = min sent.length historyMax := by
    unfold historyMax
    omega
  rw [windowed.history, List.map_drop, windowed.ids, List.drop_range', Nat.mul_one, start, size]

private theorem filter_range'_above (first count : Nat) (k : Int) :
    (List.range' first count).filter (fun id : Nat => k < id) =
      List.range' (max first (k + 1).toNat) (first + count - max first (k + 1).toNat) := by
  induction count generalizing first with
  | zero =>
      have none_left : first + 0 - max first (k + 1).toNat = 0 := by omega
      rw [none_left]
      rfl
  | succ count ih =>
      rw [List.range'_succ, List.filter_cons, ih (first + 1)]
      by_cases above : k < first
      · have start : max first (k + 1).toNat = first := by omega
        have next : max (first + 1) (k + 1).toNat = first + 1 := by omega
        have more : first + (count + 1) - first = first + 1 + count - (first + 1) + 1 := by omega
        rw [if_pos (by simpa using above), start, next, more, List.range'_succ]
      · have start : max first (k + 1).toNat = max (first + 1) (k + 1).toNat := by omega
        rw [if_neg (by simpa using above), start]
        congr 1
        omega

theorem Windowed.sent_at (windowed : Windowed s sent) {e : HistoryEntry} (held : e ∈ s.history) :
    sent[e.id - 1]? = some e := by
  rw [windowed.history] at held
  obtain ⟨j, at_j⟩ := List.mem_iff_getElem?.mp (List.mem_of_mem_drop held)
  have number : (sent.map HistoryEntry.id)[j]? = some e.id := by rw [List.getElem?_map, at_j]; rfl
  rw [windowed.ids] at number
  have bound : j < sent.length := (List.getElem?_eq_some_iff.mp at_j).1
  rw [List.getElem?_range' bound] at number
  have same : 1 + 1 * j = e.id := Option.some.inj number
  have index : e.id - 1 = j := by omega
  rw [index]
  exact at_j

theorem Windowed.replayTo_ids (windowed : Windowed s sent) {k : Int} (positive : 1 ≤ k) :
    (replayTo s k).map Chunk.id =
      (List.range' (max (max 1 (sent.length - 499)) (k + 1).toNat)
        (sent.length + 1 - max (max 1 (sent.length - 499)) (k + 1).toNat)).map some := by
  have after : ¬ k ≤ 0 := by omega
  have chunks : (replayTo s k).map Chunk.id =
      ((s.history.map HistoryEntry.id).filter fun id : Nat => k < id).map some := by
    rw [replayTo, if_neg after, missed, List.map_map, List.filter_map, List.map_map]
    rfl
  have last : max 1 (sent.length - 499) + min sent.length historyMax = sent.length + 1 := by
    unfold historyMax
    omega
  rw [chunks, windowed.history_ids, filter_range'_above, last]

theorem replayTo_eq {k : Int} (positive : 1 ≤ k) :
    replayTo s k = (s.history.filter fun e => k < e.id).map HistoryEntry.chunk := by
  have after : ¬ k ≤ 0 := by omega
  rw [replayTo, if_neg after, missed]

theorem stream_sends (i : Nat) (chunks : List Chunk) (s : Shared)
    (isOpen : (s.subscriber i).isOpen = true) (filled : ∀ chunk ∈ chunks, chunk.text ≠ "") :
    ((chunks.foldl (fun s chunk => send s i chunk) s).subscriber i).stream =
      (s.subscriber i).stream ++ chunks := by
  induction chunks generalizing s with
  | nil => exact (List.append_nil _).symm
  | cons chunk chunks ih =>
      have taken : ((send s i chunk).subscriber i).stream = (s.subscriber i).stream ++ [chunk] := by
        rw [subscriber_send, if_pos rfl, SseSubscriber.send,
          if_neg (by simp [isOpen, filled chunk List.mem_cons_self])]
      have still : ((send s i chunk).subscriber i).isOpen = true := by rw [send_isOpen]; exact isOpen
      have rest := ih (send s i chunk) still fun c mem => filled c (List.mem_cons_of_mem _ mem)
      rw [List.foldl_cons, rest, taken, List.append_assoc, List.singleton_append]

end Held

/-- The history after a sequence of events, and what each replay from it sends. -/
structure LastEvents (events : List (String × String)) (sent : List HistoryEntry) (s : Shared) :
    Prop where
  nextId : s.nextId = events.length + 1
  ids : s.history.map HistoryEntry.id =
    List.range' (max 1 (events.length - 499)) (min events.length 500)
  entries : ∀ e ∈ s.history, sent[e.id - 1]? = some e ∧ ∃ event, events[e.id - 1]? = some event ∧
    e.eventName = event.1 ∧ e.payload = eventText event.1 e.id event.2
  replays : ∀ k : Int, 1 ≤ k →
    replayTo s k = (s.history.filter fun e => k < e.id).map HistoryEntry.chunk
  ascending : ∀ k : Int, 1 ≤ k → (replayTo s k).map Chunk.id =
    (List.range' (max (max 1 (events.length - 499)) (k + 1).toNat)
      (events.length + 1 - max (max 1 (events.length - 499)) (k + 1).toNat)).map some
  nothing : ∀ k : Int, k ≤ 0 → replayTo s k = []
  streams : ∀ (k : Int) (i : Nat), (s.subscriber i).isOpen = true →
    ((replay s i k).subscriber i).stream = (s.subscriber i).stream ++ replayTo s k

/-- After any sequence of broadcasts to a broker that has not sent anything, the history holds the last
500 events as they were sent, and a replay sends exactly those after its id. -/
theorem history_after_broadcasts (s₀ s : Shared) (events : List (String × String))
    (sent : List HistoryEntry) (first : s₀.nextId = 1) (empty : s₀.history = [])
    (run : broadcastAll events s₀ = (s, sent)) : LastEvents events sent s := by
  have start : Windowed s₀ [] := ⟨first, rfl, empty⟩
  have windowed : Windowed s sent := by
    have result := start.broadcastAll events
    rw [run] at result
    exact result
  have numbered : sent = (events.zipIdx 1).map numberedEntry := by
    have result := broadcastAll_sent events s₀
    rw [run, first] at result
    exact result
  have size : sent.length = events.length := by
    rw [numbered, List.length_map, List.length_zipIdx]
  have entries : ∀ e ∈ s.history, ∃ event, events[e.id - 1]? = some event ∧
      e.eventName = event.1 ∧ e.payload = eventText event.1 e.id event.2 := by
    intro e held
    have at_id := windowed.sent_at held
    rw [numbered, List.getElem?_map, List.getElem?_zipIdx, Option.map_map] at at_id
    obtain ⟨event, found, same⟩ := Option.map_eq_some_iff.mp at_id
    have number : 1 + (e.id - 1) = e.id := congrArg HistoryEntry.id same
    have name : event.1 = e.eventName := congrArg HistoryEntry.eventName same
    have text : eventText event.1 (1 + (e.id - 1)) event.2 = e.payload :=
      congrArg HistoryEntry.payload same
    rw [number] at text
    exact ⟨event, found, name.symm, text.symm⟩
  have filled : ∀ k, ∀ chunk ∈ replayTo s k, chunk.text ≠ "" := by
    intro k chunk mem
    unfold replayTo at mem
    split at mem
    · cases mem
    · obtain ⟨e, read, rfl⟩ := List.mem_map.mp mem
      obtain ⟨event, -, -, text⟩ := entries e (List.mem_of_mem_filter read)
      show e.payload ≠ ""
      rw [text]
      exact eventText_ne_empty _ _ _
  exact {
    nextId := size ▸ windowed.nextId
    ids := size ▸ windowed.history_ids
    entries := fun e held => ⟨windowed.sent_at held, entries e held⟩
    replays := fun k positive => replayTo_eq positive
    ascending := fun k positive => size ▸ windowed.replayTo_ids positive
    nothing := fun k below => if_pos below
    streams := fun k i isOpen => stream_sends i _ s isOpen (filled k) }

section Calls

def Alone (i : Nat) (_ : Config Shared Pc) : Label Pc Reply → Prop
  | .spawn _ => False
  | .act j _ => j = i

variable {i : Nat} {ps : List Pc} {s : Shared}

theorem step_alone {pc pc' : Pc} {s' : Shared} {d : Config Shared Pc} (at_i : ps[i]? = some pc)
    (stepped : broker.step i s pc {} = some (s', pc'))
    (rest : Reach broker (Alone i) ⟨s', ps.set i pc'⟩ d) : Reach broker (Alone i) ⟨s, ps⟩ d := by
  have moved : broker.next ⟨s, ps⟩ (.act i {}) = some ⟨s', ps.set i pc'⟩ := by
    simp only [Machine.next, at_i, stepped]
  exact (Reach.step .refl rfl moved).trans rest

theorem getElem?_set_alone {pc : Pc} (at_i : ps[i]? = some pc) (pc' : Pc) :
    (ps.set i pc')[i]? = some pc' :=
  List.getElem?_set_self (List.getElem?_eq_some_iff.mp at_i).1

theorem sendAll_alone (e : HistoryEntry) (subs : List Nat) (at_i : ps[i]? = some (.sendAll e subs)) :
    Reach broker (Alone i) ⟨s, ps⟩
      ⟨subs.foldl (fun s t => send s t e.chunk) s, ps.set i .finished⟩ := by
  induction subs generalizing s ps with
  | nil => exact step_alone at_i rfl .refl
  | cons t subs ih =>
      refine step_alone at_i rfl ?_
      have rest := ih (s := send s t e.chunk) (getElem?_set_alone at_i (.sendAll e subs))
      rw [List.set_set] at rest
      exact rest

/-- A call of `broadcast` that no other thread interrupts. -/
theorem broadcast_alone {eventName data : String} (at_i : ps[i]? = some (.assignId eventName data)) :
    Reach broker (Alone i) ⟨s, ps⟩ ⟨(broadcast s eventName data).1, ps.set i .finished⟩ := by
  refine step_alone at_i rfl (step_alone (getElem?_set_alone at_i _) rfl ?_)
  rw [List.set_set]
  have rest := sendAll_alone (s := (broadcastWithId s eventName data 0).1)
    (broadcastWithId s eventName data 0).2 (broadcastWithId s eventName data 0).1.subs
    (getElem?_set_alone at_i _)
  rw [List.set_set] at rest
  exact rest

theorem sendMissed_alone (entries : List HistoryEntry) (at_i : ps[i]? = some (.sendMissed entries)) :
    Reach broker (Alone i) ⟨s, ps⟩
      ⟨(entries.map HistoryEntry.chunk).foldl (fun s chunk => send s i chunk) s,
        ps.set i .sendInit⟩ := by
  induction entries generalizing s ps with
  | nil => exact step_alone at_i rfl .refl
  | cons e entries ih =>
      refine step_alone at_i rfl ?_
      have rest := ih (s := send s i e.chunk) (getElem?_set_alone at_i (.sendMissed entries))
      rw [List.set_set] at rest
      exact rest

/-- The replay of a connection that no other thread interrupts. -/
theorem replay_alone {k : Int} (positive : 1 ≤ k) (at_i : ps[i]? = some (.replay k)) :
    Reach broker (Alone i) ⟨s, ps⟩ ⟨replay s i k, ps.set i .sendInit⟩ := by
  refine step_alone at_i rfl ?_
  have rest := sendMissed_alone (s := s) (missed s k) (getElem?_set_alone at_i _)
  rw [List.set_set] at rest
  rw [replay, replayTo_eq positive]
  exact rest

end Calls

def manyEvents : List (String × String) := (List.range 620).map fun n => ("progress", toString n)

theorem history_after_broadcasts_many :
    (broadcastAll manyEvents {}).1.history.map HistoryEntry.id = List.range' 121 500 ∧
    (replayTo (broadcastAll manyEvents {}).1 100).map Chunk.id = (List.range' 121 500).map some ∧
    (replayTo (broadcastAll manyEvents {}).1 600).map Chunk.id = (List.range' 601 20).map some := by
  have last := history_after_broadcasts {} (broadcastAll manyEvents {}).1 manyEvents
    (broadcastAll manyEvents {}).2 rfl rfl (Prod.eta _).symm
  have size : manyEvents.length = 620 := by
    rw [manyEvents, List.length_map, List.length_range]
  have kept := last.ids
  have early := last.ascending 100 (by decide)
  have late := last.ascending 600 (by decide)
  rw [size] at kept early late
  exact ⟨kept, early, late⟩

end Scand.Sse.Window
