/- path: Scand/Sse/StreamOrder
   layer: results
   digest: The events on the stream of a subscriber have increasing ids, as long as each of them is sent
   while none of a smaller or the same id is still on its way. -/

import Scand.Sse.Streams

set_option autoImplicit false
set_option relaxedAutoImplicit false

namespace Scand.Sse.StreamOrder

open Scand.Foundation.Interleaving
open Scand.Sse.Broker
open Scand.Sse.Streams

/-- An event is put on the stream of subscriber `t` while everything else that is on its way there has
a greater id. -/
def InTurn (t : Nat) (c : Config Shared Pc) : Label Pc Reply → Prop
  | .spawn _ => True
  | .act j _ => ∀ pc ∈ c.procs[j]?, ∀ n ∈ appended c.shared t j pc,
      ∀ k < c.procs.length, k ≠ j → ∀ other ∈ c.procs[k]?, ∀ m ∈ onItsWay c.shared t k other, n < m

/-- What is on its way to subscriber `t` has greater ids than what is on its stream. -/
structure Ordered (t : Nat) (c : Config Shared Pc) : Prop where
  numbered : Numbered c
  sorted : (sentIds c.shared t).Pairwise (· < ·)
  ahead : ∀ j pc, c.procs[j]? = some pc → ∀ n ∈ sentIds c.shared t,
    ∀ m ∈ onItsWay c.shared t j pc, n < m

section Steps

variable {t i j : Nat} {s s' : Shared} {pc pc' : Pc} {r : Reply} {c d : Config Shared Pc}
  {l : Label Pc Reply}

theorem own_increasing (numbered : Numbered c) (at_j : c.procs[j]? = some pc) :
    (onItsWay c.shared t j pc).Pairwise (· < ·) := by
  unfold onItsWay
  cases pc
  case takeSnapshot e =>
    simp only [broadcasting, replaying, List.append_nil]
    split <;> simp
  case sendAll e rest =>
    simp only [broadcasting, replaying, List.append_nil]
    split <;> simp
  case replay lastEventId =>
    simp only [broadcasting, replaying, List.nil_append]
    split
    · exact numbered.held.increasing.sublist (List.filter_sublist.map HistoryEntry.id)
    · exact List.Pairwise.nil
  case sendMissed rest =>
    simp only [broadcasting, replaying, List.nil_append]
    split
    · exact numbered.missed _ (List.mem_of_getElem? at_j) rest rfl
    · exact List.Pairwise.nil
  all_goals exact List.Pairwise.nil

theorem onItsWay_sublist (subs : t ∈ s'.subs → t ∈ s.subs) (history : s'.history = s.history) :
    (onItsWay s' t j pc).Sublist (onItsWay s t j pc) := by
  unfold onItsWay
  refine List.Sublist.append ?_ ?_
  · cases pc
    case takeSnapshot e =>
      simp only [broadcasting]
      by_cases listed : t ∈ s'.subs
      · simp [listed, subs listed]
      · simp [listed]
    all_goals exact List.Sublist.refl _
  · cases pc <;> simp [replaying, missed, history]

theorem onItsWay_assign {eventName data : String} {m : Nat}
    (mem : m ∈ onItsWay (broadcastWithId s eventName data 0).1 t j pc) :
    m ∈ onItsWay s t j pc ∨ m = s.nextId := by
  unfold onItsWay at mem ⊢
  rcases List.mem_append.mp mem with sending | replayed
  · refine Or.inl (List.mem_append_left _ ?_)
    cases pc <;> exact sending
  · cases pc
    case replay lastEventId =>
      simp only [replaying] at replayed ⊢
      split at replayed
      · rename_i same
        obtain ⟨e, listed, rfl⟩ := List.mem_map.mp replayed
        obtain ⟨kept, newer⟩ := List.mem_filter.mp listed
        rcases mem_history_assign kept with old | rfl
        · refine Or.inl (List.mem_append_right _ ?_)
          rw [if_pos same]
          exact List.mem_map_of_mem (List.mem_filter.mpr ⟨old, newer⟩)
        · exact Or.inr rfl
      · cases replayed
    case sendMissed rest => exact Or.inl (List.mem_append_right _ replayed)
    all_goals cases replayed

theorem Ordered.next (ordered : Ordered t c) (guard : InTurn t c l)
    (moved : broker.next c l = some d) : Ordered t d := by
  suffices both : (sentIds d.shared t).Pairwise (· < ·) ∧
      ∀ j pc, d.procs[j]? = some pc → ∀ n ∈ sentIds d.shared t,
        ∀ m ∈ onItsWay d.shared t j pc, n < m from
    ⟨ordered.numbered.next moved, both.1, both.2⟩
  rcases next_cases moved with ⟨p, rfl, entry, rfl⟩ | ⟨i, r, p, s', q, rfl, at_i, stepped, rfl⟩
  · refine ⟨ordered.sorted, fun j pc at_j n sent m pending => ?_⟩
    rcases getElem?_snoc_cases at_j with old | rfl
    · exact ordered.ahead j pc old n sent m pending
    · cases pc <;> first | (cases entry; done) | cases pending
  · have numbers := ordered.numbered
    by_cases new : ∃ eventName data, p = .assignId eventName data
    · obtain ⟨eventName, data, rfl⟩ := new
      cases stepped
      refine ⟨ordered.sorted, fun j pc at_j n sent m pending => ?_⟩
      have small := (numbers.sent t n sent).2
      rcases getElem?_set_cases at_j with ⟨rfl, rfl⟩ | ⟨-, at_j⟩
      · have next : m = c.shared.nextId := by
          simp only [onItsWay, broadcasting, replaying, List.append_nil] at pending
          split at pending
          · exact List.mem_singleton.mp pending
          · cases pending
        omega
      · rcases onItsWay_assign pending with old | next
        · exact ordered.ahead j pc at_j n sent m old
        · omega
    · by_cases added : ∃ k, p = .add k ∧ i = t
      · obtain ⟨k, rfl, rfl⟩ := added
        cases stepped
        simp [sentIds]
      · have moves : Moves t i c.shared p s' q := broker_moves stepped
          (fun eventName data same => new ⟨eventName, data, same⟩)
          (fun k is_add same => added ⟨k, is_add, same⟩)
          (numbers.rest p (List.mem_of_getElem? at_i))
        have own := own_increasing (t := t) numbers at_i
        have split := List.pairwise_append.mp (own.sublist moves.own)
        simp only [moves.sent]
        refine ⟨List.pairwise_append.mpr ⟨ordered.sorted, split.1, fun n sent m now => ?_⟩,
          fun j pc at_j n sent m pending => ?_⟩
        · exact ordered.ahead i p at_i n sent m
            (moves.own.subset (List.mem_append_left _ now))
        · rcases getElem?_set_cases at_j with ⟨rfl, rfl⟩ | ⟨other, at_j⟩
          · rcases List.mem_append.mp sent with old | now
            · exact ordered.ahead i p at_i n old m
                (moves.own.subset (List.mem_append_right _ pending))
            · exact split.2.2 n now m pending
          · have before := (onItsWay_sublist moves.subs moves.history).subset pending
            rcases List.mem_append.mp sent with old | now
            · exact ordered.ahead j pc at_j n old m before
            · have bound := (List.getElem?_eq_some_iff.mp at_j).1
              exact guard p at_i n now j bound (Ne.symm other) pc at_j m before

end Steps

/-- In every run in which each event is sent to subscriber `t` in its turn, the ids of the events on
its stream are strictly increasing. -/
theorem stream_increasing (t : Nat) (c : Config Shared Pc)
    (reach : Reach broker (InTurn t) ⟨{}, []⟩ c) : (sentIds c.shared t).Pairwise (· < ·) := by
  have initial : Ordered t ⟨{}, []⟩ := ⟨numbered_initial, by simp [sentIds], by simp⟩
  exact (reach.invariant initial fun _ _ _ ordered guard moved => ordered.next guard moved).sorted

section Sample

instance (t : Nat) : ∀ c l, Decidable (InTurn t c l)
  | _, .spawn _ => .isTrue trivial
  | c, .act j _ => inferInstanceAs (Decidable (∀ pc ∈ c.procs[j]?,
      ∀ n ∈ appended c.shared t j pc, ∀ k < c.procs.length, k ≠ j → ∀ other ∈ c.procs[k]?,
        ∀ m ∈ onItsWay c.shared t k other, n < m))

def connecting : Config Shared Pc := ⟨{}, [.add 1]⟩

theorem connecting_reach {G : Config Shared Pc → Label Pc Reply → Prop}
    (spawns : ∀ c p, G c (.spawn p)) : Reach broker G ⟨{}, []⟩ connecting :=
  .step .refl (spawns _ _) (l := .spawn (.add 1)) rfl

def steps (i n : Nat) : List (Label Pc Reply) := List.replicate n (.act i {})

def crossed : List (Label Pc Reply) :=
  steps 0 2 ++ .spawn (.assignId "progress" "1") :: .spawn (.assignId "progress" "2") ::
    steps 1 2 ++ steps 2 3 ++ steps 1 1

/-- A client is added and served between the id of the second event and its snapshot. -/
def overlapped : List (Label Pc Reply) :=
  .spawn (.assignId "progress" "1") :: steps 1 3 ++ .spawn (.assignId "progress" "2") ::
    steps 2 1 ++ steps 0 3 ++ steps 2 2

/-- Two broadcasts that overlap reach a client out of order, and an event that is numbered before the
client is added and sent after that reaches it twice. -/
theorem events_reordered :
    (∃ c, Reach broker anyLabel connecting c ∧ sentIds c.shared 0 = [2, 1]) ∧
      ∃ c, Reach broker anyLabel connecting c ∧ sentIds c.shared 0 = [2, 2] := by
  constructor
  · obtain ⟨c, reach, sent⟩ := reach_of_run_test (M := broker) (G := anyLabel) (c := connecting)
      (g := fun _ _ => true) crossed (fun c => decide (sentIds c.shared 0 = [2, 1]))
      (fun _ _ _ => trivial) (by decide +kernel)
    exact ⟨c, reach, of_decide_eq_true sent⟩
  · obtain ⟨c, reach, sent⟩ := reach_of_run_test (M := broker) (G := anyLabel) (c := connecting)
      (g := fun _ _ => true) overlapped (fun c => decide (sentIds c.shared 0 = [2, 2]))
      (fun _ _ _ => trivial) (by decide +kernel)
    exact ⟨c, reach, of_decide_eq_true sent⟩

theorem stream_increasing_apart :
    ∃ c, Reach broker (InTurn 0) ⟨{}, []⟩ c ∧ sentIds c.shared 0 = [2, 3] ∧
      (sentIds c.shared 0).Pairwise (· < ·) := by
  obtain ⟨c, reach, sent⟩ := reach_of_run_test (M := broker) (G := InTurn 0) (c := connecting)
    (g := fun c l => decide (InTurn 0 c l))
    (.spawn (.assignId "progress" "1") :: steps 1 3 ++ .spawn (.assignId "progress" "2") ::
      steps 2 3 ++ steps 0 3 ++ .spawn (.assignId "progress" "3") :: steps 3 3)
    (fun c => decide (sentIds c.shared 0 = [2, 3])) (fun _ _ => of_decide_eq_true)
    (by decide +kernel)
  have whole := (connecting_reach fun _ _ => trivial).trans reach
  exact ⟨c, whole, of_decide_eq_true sent, stream_increasing 0 c whole⟩

end Sample

end Scand.Sse.StreamOrder
