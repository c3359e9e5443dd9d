/- path: Scand/Sse/Broker
   layer: code model
   digest: SseBroker with its history, and the connections that it serves, as atomic steps. -/

import Scand.Foundation.Interleaving
import Mathlib.Logic.Function.Basic

set_option autoImplicit false
set_option relaxedAutoImplicit false

namespace Scand.Sse.Broker

open Scand.Foundation.Interleaving (Machine)

structure HistoryEntry where
  id : Nat
  eventName : String
  payload : String
  deriving DecidableEq

/-- A text that `send` is called with; only broadcast events carry an id. -/
structure Chunk where
  id : Option Nat := none
  text : String
  deriving DecidableEq

/-- A subscriber with everything that `send` has appended to its buffer. -/
structure SseSubscriber where
  isOpen : Bool := true
  stream : List Chunk := []

/-- What the threads share. A subscriber is named by the connection that made it, and `subs` is in
the order of the set, that of the addresses. -/
structure Shared where
  nextId : Nat := 1
  history : List HistoryEntry := []
  subs : List Nat := []
  subscriber : Nat → SseSubscriber := fun _ => {}

/-- What the surroundings answer to one step: the place of a new address in the set, and the texts of
the stored hooks and of a pending resume. -/
structure Reply where
  place : Nat := 0
  items : String := ""
  resumed : Option String := none

/-- Where a broadcast, a connection or another call stands: each place is the next atomic step. -/
inductive Pc
  -- broadcast, with the serialised data
  | assignId (eventName data : String)
  | takeSnapshot (e : HistoryEntry)
  | sendAll (e : HistoryEntry) (rest : List Nat)
  -- handle_sse, once the headers are written
  | add (lastEventId : Int)
  | replay (lastEventId : Int)
  | sendMissed (rest : List HistoryEntry)
  | sendInit | sendResumed | keepAlive | remove
  -- an async_write of a connection that completes with an error
  | failWrite (i : Nat)
  -- close_all
  | closeAll | closeEach (rest : List Nat)
  | finished
  deriving DecidableEq

def historyMax : Nat := 500

def eventText (eventName : String) (id : Nat) (data : String) : String :=
  "event: " ++ eventName ++ "\n" ++ "id: " ++ toString id ++ "\n" ++ "data: " ++ data ++ "\n\n"

def HistoryEntry.chunk (e : HistoryEntry) : Chunk := { id := some e.id, text := e.payload }

/-- The locked part of `broadcast_with_id`; the id 0 stands for the next one. -/
def broadcastWithId (s : Shared) (eventName data : String) (eventId : Nat) :
    Shared × HistoryEntry :=
  let id := if eventId = 0 then s.nextId else eventId
  let e : HistoryEntry := {
    id := id, eventName := eventName, payload := eventText eventName id data }
  let history := s.history ++ [e]
  ({ s with
      nextId := if eventId = 0 then s.nextId + 1 else s.nextId
      history := history.drop (history.length - historyMax) }, e)

def SseSubscriber.send (sub : SseSubscriber) (chunk : Chunk) : SseSubscriber :=
  if chunk.text = "" ∨ sub.isOpen = false then sub
  else { sub with stream := sub.stream ++ [chunk] }

/-- `SseSubscriber::close`, and the end of a write with an error. -/
def SseSubscriber.close (sub : SseSubscriber) : SseSubscriber := { sub with isOpen := false }

def send (s : Shared) (i : Nat) (chunk : Chunk) : Shared :=
  { s with subscriber := Function.update s.subscriber i ((s.subscriber i).send chunk) }

def close (s : Shared) (i : Nat) : Shared :=
  { s with subscriber := Function.update s.subscriber i (s.subscriber i).close }

/-- `insert` of a set: an element that it holds already is not put in again. -/
def insertSub (subs : List Nat) (place i : Nat) : List Nat :=
  if i ∈ subs then subs else subs.take place ++ i :: subs.drop place

theorem mem_insertSub {t i : Nat} {subs : List Nat} (place : Nat) (listed : t ∈ subs) :
    t ∈ insertSub subs place i := by
  unfold insertSub
  split
  · exact listed
  · rw [← List.take_append_drop place subs] at listed
    rcases List.mem_append.mp listed with front | back
    · exact List.mem_append_left _ front
    · exact List.mem_append_right _ (List.mem_cons_of_mem _ back)

theorem self_mem_insertSub {i : Nat} {subs : List Nat} (place : Nat) : i ∈ insertSub subs place i := by
  unfold insertSub
  split
  · assumption
  · simp

def missed (s : Shared) (lastEventId : Int) : List HistoryEntry :=
  s.history.filter fun e => lastEventId < e.id

def broadcastStep (s : Shared) (pc : Pc) : Option (Shared × Pc) :=
  match pc with
  | .assignId eventName data =>
      let (s, e) := broadcastWithId s eventName data 0
      some (s, .takeSnapshot e)
  | .takeSnapshot e => some (s, .sendAll e s.subs)
  | .sendAll _ [] => some (s, .finished)
  | .sendAll e (i :: rest) => some (send s i e.chunk, .sendAll e rest)
  | _ => none

/-- One step of connection `i`: `handle_sse`, and then the thread that keeps it alive. -/
def connectionStep (i : Nat) (s : Shared) (pc : Pc) (r : Reply) : Option (Shared × Pc) :=
  match pc with
  | .add lastEventId =>
      let subscriber := Function.update s.subscriber i {}
      some ({ s with subs := insertSub s.subs r.place i, subscriber := subscriber },
        if lastEventId > 0 then .replay lastEventId else .sendInit)
  | .replay lastEventId => some (s, .sendMissed (missed s lastEventId))
  | .sendMissed [] => some (s, .sendInit)
  | .sendMissed (e :: rest) => some (send s i e.chunk, .sendMissed rest)
  | .sendInit =>
      some (send s i { text := "event: init\ndata: " ++ r.items ++ "\n\n" }, .sendResumed)
  | .sendResumed =>
      some (match r.resumed with
        | some body => send s i { text := "event: resumed\ndata: " ++ body ++ "\n\n" }
        | none => s, .keepAlive)
  | .keepAlive =>
      if (s.subscriber i).isOpen then some (send s i { text := ": keep-alive\n\n" }, .keepAlive)
      else some (s, .remove)
  | .remove => some ({ s with subs := s.subs.erase i }, .finished)
  | _ => none

/-- One step of a write that fails, or of `close_all`. -/
def closeStep (s : Shared) (pc : Pc) : Option (Shared × Pc) :=
  match pc with
  | .failWrite i => some (close s i, .finished)
  | .closeAll => some ({ s with subs := [] }, .closeEach s.subs)
  | .closeEach [] => some (s, .finished)
  | .closeEach (i :: rest) => some (close s i, .closeEach rest)
  | _ => none

def isCall : Pc → Bool
  | .assignId _ _ | .add _ | .failWrite _ | .closeAll => true
  | _ => false

def broker : Machine Shared Pc Reply where
  entry := isCall
  step i s pc r := (broadcastStep s pc).or ((connectionStep i s pc r).or (closeStep s pc))

theorem broker_step {i : Nat} {s : Shared} {pc : Pc} {r : Reply} {next : Shared × Pc}
    (stepped : broker.step i s pc r = some next) :
    broadcastStep s pc = some next ∨ connectionStep i s pc r = some next ∨
      closeStep s pc = some next := by
  simp only [broker, Option.or_eq_some_iff] at stepped
  rcases stepped with broadcast | ⟨-, connection | ⟨-, closed⟩⟩
  · exact Or.inl broadcast
  · exact Or.inr (Or.inl connection)
  · exact Or.inr (Or.inr closed)

def sentIds (s : Shared) (i : Nat) : List Nat := (s.subscriber i).stream.filterMap Chunk.id

end Scand.Sse.Broker
