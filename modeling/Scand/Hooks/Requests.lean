/- path: Scand/Hooks/Requests
   layer: code model
   digest: WebhookStore, and the requests that fill, list and clear it, as atomic steps. -/

import Scand.Foundation.Interleaving
import Scand.Foundation.JsonValue

set_option autoImplicit false
set_option relaxedAutoImplicit false

namespace Scand.Hooks.Requests

open Scand.Foundation.Interleaving (Machine)
open Scand.Foundation.JsonValue

structure WebhookEntry where
  id : Nat := 0
  receivedAt : String := ""
  source : String := ""
  messageType : String := ""
  body : String := ""
  remoteIp : String := ""
  deriving DecidableEq

/-- The newest entry stands in front. -/
structure WebhookStore where
  entries : List WebhookEntry := []
  nextId : Nat := 1

def maxSize : Nat := 500

def WebhookStore.stamp (store : WebhookStore) (now : String) (e : WebhookEntry) : WebhookEntry :=
  { e with id := store.nextId, receivedAt := now }

def WebhookStore.add (store : WebhookStore) (now : String) (e : WebhookEntry) : WebhookStore where
  entries := (store.stamp now e :: store.entries).take maxSize
  nextId := store.nextId + 1

/-- The objects that `last` returns have the fields of the entries. -/
def WebhookStore.last (store : WebhookStore) (limit : Nat) : List WebhookEntry :=
  store.entries.take limit

def WebhookStore.clear (store : WebhookStore) : WebhookStore := { store with entries := [] }

def stringField (obj : Fields) (key : String) : Option String :=
  (obj.lookup key).bind Json.asString?

def detectSource (msgType : String) : String :=
  if msgType = "" then "custom"
  else if "TYPE_".toList.isPrefixOf msgType.toList then "ozon"
  else if msgType = "SIGNAL" ∨ msgType = "product_updated" ∨ msgType = "product_created" then "onec"
  else "custom"

def hookEntry (serialize : Json → String) (body : Json) : WebhookEntry :=
  let obj := (body.asObject?).getD []
  let messageType := (stringField obj "message_type").getD ""
  let messageType := if messageType = "" then (stringField obj "event").getD "" else messageType
  let source := (stringField obj "source").getD ""
  { source := if source = "" then detectSource messageType else source
    messageType := messageType
    body := serialize body }

def extractMessageType (body : Json) : String :=
  let obj := (body.asObject?).getD []
  ((stringField obj "message_type").or (stringField obj "event")).getD ""

def notifyEntry (serialize : Json → String) (body : Json) : WebhookEntry where
  source := "ozon"
  messageType := extractMessageType body
  body := serialize body

def triggersSync (msgType : String) : Bool :=
  msgType ∈ ["TYPE_CREATE_OR_UPDATE_ITEM", "TYPE_CREATE_ITEM", "TYPE_UPDATE_ITEM",
    "TYPE_STOCKS_CHANGED", "TYPE_FBO_STOCKS_CHANGED"]

structure Event where
  eventName : String
  data : Option WebhookEntry
  deriving DecidableEq

/-- What the requests share. `stored` is every entry that was ever put into the store. -/
structure Shared where
  store : WebhookStore := {}
  events : List Event := []
  triggers : Nat := 0
  stored : List WebhookEntry := []

/-- Where a request stands: each place is the next atomic step. A notification goes on with its message
type. -/
inductive Pc
  | hook (body : Json)
  | notify (body : Json)
  | readLast (msgType : Option String)
  | broadcastHook (e : WebhookEntry) (msgType : Option String)
  | handleEvent (msgType : String)
  | list
  | clear | broadcastCleared
  | finished (items : List WebhookEntry)

def afterBroadcast : Option String → Pc
  | some msgType => .handleEvent msgType
  | none => .finished []

def store (s : Shared) (now : String) (e : WebhookEntry) : Shared :=
  { s with store := s.store.add now e, stored := s.stored ++ [s.store.stamp now e] }

def send (s : Shared) (event : Event) : Shared := { s with events := s.events ++ [event] }

/-- One step of a request; the reply is the clock. -/
def requestStep (serialize : Json → String) (s : Shared) (pc : Pc) (now : String) :
    Option (Shared × Pc) :=
  match pc with
  | .hook body => some (store s now (hookEntry serialize body), .readLast none)
  | .notify body =>
      some (store s now (notifyEntry serialize body), .readLast (some (extractMessageType body)))
  | .readLast msgType =>
      match s.store.last 1 with
      | e :: _ => some (s, .broadcastHook e msgType)
      | [] => some (s, afterBroadcast msgType)
  | .broadcastHook e msgType =>
      some (send s { eventName := "hook", data := some e }, afterBroadcast msgType)
  | .handleEvent msgType =>
      some ({ s with triggers := s.triggers + (triggersSync msgType).toNat }, .finished [])
  | .list => some (s, .finished (s.store.last 200))
  | .clear => some ({ s with store := s.store.clear }, .broadcastCleared)
  | .broadcastCleared => some (send s { eventName := "cleared", data := none }, .finished [])
  | .finished _ => none

def isRequest : Pc → Bool
  | .hook _ | .notify _ | .list | .clear => true
  | _ => false

def requests (serialize : Json → String) : Machine Shared Pc String where
  entry := isRequest
  step _ s pc now := requestStep serialize s pc now

end Scand.Hooks.Requests
