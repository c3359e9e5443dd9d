/- path: Scand/Hooks/Connections
   layer: code model
   digest: The requests of the hook store and the connections of handle_sse, which are added to the
   subscribers, read the store and send what they read as three steps of their own. -/

import Scand.Hooks.Requests
import Scand.Sse.Broker

set_option autoImplicit false
set_option relaxedAutoImplicit false

namespace Scand.Hooks.Connections

open Scand.Foundation.Interleaving (Machine)
open Scand.Foundation.JsonValue (Json)
open Scand.Hooks.Requests (WebhookEntry Event afterBroadcast isRequest requestStep)
open Scand.Sse.Broker (insertSub)

inductive Message
  | init (items : List WebhookEntry)
  | event (event : Event)
  deriving DecidableEq

structure Subscriber where
  isOpen : Bool := true
  stream : List Message := []

structure Shared where
  hooks : Requests.Shared := {}
  subs : List Nat := []
  subscriber : Nat → Subscriber := fun _ => {}

structure Reply where
  now : String := ""
  place : Nat := 0
  missed : List Event := []

inductive Pc
  | request (pc : Requests.Pc)
  -- broadcast, once the event has its id
  | takeSnapshot (event : Event) (msgType : Option String)
  | sendAll (event : Event) (rest : List Nat) (msgType : Option String)
  -- handle_sse, once the headers are written
  | add (lastEventId : Int)
  | replay | sendMissed (rest : List Event)
  | readStore | sendInit (items : List WebhookEntry)
  | keepAlive | remove
  -- an async_write of a connection that completes with an error
  | failWrite (i : Nat)
  | finished

def Subscriber.send (sub : Subscriber) (message : Message) : Subscriber :=
  if sub.isOpen then { sub with stream := sub.stream ++ [message] } else sub

def send (s : Shared) (i : Nat) (message : Message) : Shared :=
  { s with subscriber := Function.update s.subscriber i ((s.subscriber i).send message) }

def close (s : Shared) (i : Nat) : Shared :=
  { s with subscriber := Function.update s.subscriber i { s.subscriber i with isOpen := false } }

/-- The event that a place of a request broadcasts, and the message type that it goes on with. -/
def broadcastOf : Requests.Pc → Option (Event × Option String)
  | .broadcastHook e msgType => some ({ eventName := "hook", data := some e }, msgType)
  | .broadcastCleared => some ({ eventName := "cleared", data := none }, none)
  | _ => none

/-- One step of a request; a broadcast goes on with the subscribers. -/
def hookStep (serialize : Json → String) (s : Shared) (pc : Requests.Pc) (now : String) :
    Option (Shared × Pc) :=
  (requestStep serialize s.hooks pc now).map fun next =>
    ({ s with hooks := next.1 }, match broadcastOf pc with
      | some (event, msgType) => .takeSnapshot event msgType
      | none => .request next.2)

def connectedStep (serialize : Json → String) (i : Nat) (s : Shared) (pc : Pc) (r : Reply) :
    Option (Shared × Pc) :=
  match pc with
  | .request pc => hookStep serialize s pc r.now
  | .takeSnapshot event msgType => some (s, .sendAll event s.subs msgType)
  | .sendAll _ [] msgType => some (s, .request (afterBroadcast msgType))
  | .sendAll event (t :: rest) msgType => some (send s t (.event event), .sendAll event rest msgType)
  | .add lastEventId =>
      some ({ s with
          subs := insertSub s.subs r.place i
          subscriber := Function.update s.subscriber i {} },
        if lastEventId > 0 then .replay else .readStore)
  | .replay => some (s, .sendMissed r.missed)
  | .sendMissed [] => some (s, .readStore)
  | .sendMissed (event :: rest) => some (send s i (.event event), .sendMissed rest)
  | .readStore => some (s, .sendInit (s.hooks.store.last 200))
  | .sendInit items => some (send s i (.init items), .keepAlive)
  | .keepAlive => some (s, if (s.subscriber i).isOpen then .keepAlive else .remove)
  | .remove => some ({ s with subs := s.subs.erase i }, .finished)
  | .failWrite t => some (close s t, .finished)
  | .finished => none

def isCall : Pc → Bool
  | .request pc => isRequest pc
  | .add _ | .failWrite _ => true
  | _ => false

def connected (serialize : Json → String) : Machine Shared Pc Reply where
  entry := isCall
  step := connectedStep serialize

def isListed : Pc → Bool
  | .replay | .sendMissed _ | .readStore | .sendInit _ | .keepAlive => true
  | _ => false

section Subscribers

variable {s : Shared} {i t : Nat} {message : Message}

@[simp] theorem send_hooks : (send s t message).hooks = s.hooks := rfl
@[simp] theorem send_subs : (send s t message).subs = s.subs := rfl
@[simp] theorem close_hooks : (close s t).hooks = s.hooks := rfl
@[simp] theorem close_subs : (close s t).subs = s.subs := rfl

theorem subscriber_send_of_ne (apart : i ≠ t) : (send s t message).subscriber i = s.subscriber i :=
  Function.update_of_ne apart _ _

@[simp] theorem isOpen_send : ((send s t message).subscriber i).isOpen = (s.subscriber i).isOpen := by
  by_cases same : i = t
  · subst same
    simp only [send, Function.update_self, Subscriber.send]
    split <;> rfl
  · rw [subscriber_send_of_ne same]

theorem stream_send (is_open : (s.subscriber t).isOpen = true) :
    ((send s t message).subscriber t).stream = (s.subscriber t).stream ++ [message] := by
  simp [send, Subscriber.send, is_open]

theorem isOpen_of_close (still : ((close s t).subscriber i).isOpen = true) : i ≠ t := by
  rintro rfl
  simp [close] at still

theorem subscriber_close_of_ne (apart : i ≠ t) : (close s t).subscriber i = s.subscriber i :=
  Function.update_of_ne apart _ _

end Subscribers

end Scand.Hooks.Connections
