/- path: Scand/Sse/ClientView
   layer: results
   digest: What an event source client makes of the bytes that it has received: exactly the events of the
   chunks that are complete, whatever texts the events carry. -/

import Scand.Foundation.EventStream
import Scand.Foundation.JsonText
import Scand.Sse.Resume
import Scand.Sse.WriteBuffer

set_option autoImplicit false
set_option relaxedAutoImplicit false

namespace Scand.Sse.ClientView

open Scand.Foundation.EventStream
open Scand.Foundation.Interleaving
open Scand.Foundation.JsonText
open Scand.Foundation.JsonValue (Json stoll stoll_toString)
open Scand.Sse.Broker
open Scand.Sse.Resume (received receivedIds)
open Scand.Sse.WriteBuffer (utf8)

inductive Message
  | broadcast (eventName : String) (id : Nat) (data : String)
  | init (items : String)
  | resumed (body : String)
  | keepAlive

namespace Message

def text : Message → String
  | .broadcast eventName id data => eventText eventName id data
  | .init items => "event: init\ndata: " ++ items ++ "\n\n"
  | .resumed body => "event: resumed\ndata: " ++ body ++ "\n\n"
  | .keepAlive => ": keep-alive\n\n"

def id : Message → Option Nat
  | .broadcast _ id _ => some id
  | _ => none

def chunk (m : Message) : Chunk := { id := m.id, text := m.text }

def Fits : Message → Prop
  | .broadcast eventName _ data => Printable eventName ∧ Printable data
  | .init items => Printable items
  | .resumed body => Printable body
  | .keepAlive => True

def lines : Message → List Bytes
  | .broadcast eventName id data =>
      [utf8 ("event: " ++ eventName), utf8 ("id: " ++ toString id), utf8 ("data: " ++ data)]
  | .init items => [utf8 "event: init", utf8 ("data: " ++ items)]
  | .resumed body => [utf8 "event: resumed", utf8 ("data: " ++ body)]
  | .keepAlive => [utf8 ": keep-alive"]

def event : Message → Option Event
  | .broadcast eventName _ data =>
      some { type := if eventName = "" then ascii "message" else utf8 eventName, data := utf8 data }
  | .init items => some { type := ascii "init", data := utf8 items }
  | .resumed body => some { type := ascii "resumed", data := utf8 body }
  | .keepAlive => none

end Message

section Texts

theorem utf8_append (s t : String) : utf8 (s ++ t) = utf8 s ++ utf8 t := by simp [utf8]

theorem oneLine_utf8 {text : String} (printable : Printable text) : OneLine (utf8 text) :=
  oneLine_of_text printable

theorem Message.utf8_text (m : Message) : utf8 m.text = block m.lines := by
  have newline : utf8 "\n" = [lf] := by decide
  have blank : utf8 "\n\n" = [lf, lf] := by decide
  have init_head : utf8 "event: init\ndata: " = utf8 "event: init" ++ [lf] ++ utf8 "data: " := by decide
  have resumed_head : utf8 "event: resumed\ndata: " =
      utf8 "event: resumed" ++ [lf] ++ utf8 "data: " := by decide
  cases m with
  | broadcast eventName id data =>
      change utf8 ("event: " ++ eventName ++ "\n" ++ "id: " ++ toString id ++ "\n" ++ "data: " ++ data ++
        "\n\n") = block [utf8 ("event: " ++ eventName), utf8 ("id: " ++ toString id),
        utf8 ("data: " ++ data)]
      simp only [block, lineBytes, utf8_append, newline, blank, List.flatMap_cons,
        List.flatMap_nil, List.append_assoc, List.cons_append, List.nil_append]
  | init items =>
      change utf8 ("event: init\ndata: " ++ items ++ "\n\n") =
        block [utf8 "event: init", utf8 ("data: " ++ items)]
      simp [block, lineBytes, utf8_append, init_head, blank]
  | resumed body =>
      change utf8 ("event: resumed\ndata: " ++ body ++ "\n\n") =
        block [utf8 "event: resumed", utf8 ("data: " ++ body)]
      simp [block, lineBytes, utf8_append, resumed_head, blank]
  | keepAlive =>
      change utf8 ": keep-alive\n\n" = block [utf8 ": keep-alive"]
      decide

theorem filled_utf8 {text : String} (printable : Printable text) (some_char : text ≠ "") :
    Filled (utf8 text) :=
  ⟨oneLine_utf8 printable, fun nothing => some_char (WriteBuffer.utf8_eq_nil_iff.mp nothing)⟩

theorem Message.filled {m : Message} (fits : m.Fits) : ∀ line ∈ m.lines, Filled line := by
  have field : ∀ name value, Printable name → name ≠ "" → Printable value →
      Filled (utf8 (name ++ value)) := by
    intro name value plain some_char printable
    refine filled_utf8 (plain.append printable) ?_
    intro nothing
    exact some_char (String.append_eq_empty_iff.mp nothing).1
  have literal : ∀ text ∈ ["event: ", "id: ", "data: ", "event: init", "event: resumed", ": keep-alive"],
      Printable text ∧ text ≠ "" := by decide
  intro line mem
  cases m with
  | broadcast eventName id data =>
      simp only [lines, List.mem_cons, List.not_mem_nil, or_false] at mem
      rcases mem with rfl | rfl | rfl
      · exact field _ _ (literal _ (by decide)).1 (literal _ (by decide)).2 fits.1
      · exact field _ _ (literal _ (by decide)).1 (literal _ (by decide)).2 (printable_nat id)
      · exact field _ _ (literal _ (by decide)).1 (literal _ (by decide)).2 fits.2
  | init items =>
      simp only [lines, List.mem_cons, List.not_mem_nil, or_false] at mem
      rcases mem with rfl | rfl
      · exact filled_utf8 (literal _ (by decide)).1 (literal _ (by decide)).2
      · exact field _ _ (literal _ (by decide)).1 (literal _ (by decide)).2 fits
  | resumed body =>
      simp only [lines, List.mem_cons, List.not_mem_nil, or_false] at mem
      rcases mem with rfl | rfl
      · exact filled_utf8 (literal _ (by decide)).1 (literal _ (by decide)).2
      · exact field _ _ (literal _ (by decide)).1 (literal _ (by decide)).2 fits
  | keepAlive =>
      rw [lines, List.mem_singleton] at mem
      rw [mem]
      exact filled_utf8 (literal _ (by decide)).1 (literal _ (by decide)).2

end Texts

def Idle (c : Client) : Prop := c.type = [] ∧ c.data = [] ∧ c.lastEventId = c.idBuffer

/-- The last event id that a client knows after some messages. -/
def knownId (before : Bytes) (m : Message) : Bytes :=
  match m.id with
  | some id => utf8 (toString id)
  | none => before

section Blocks

variable {c : Client}

theorem line_event (value : String) :
    (c.line (utf8 ("event: " ++ value))).1 = { c with type := utf8 value } := by
  have split : utf8 ("event: " ++ value) = ascii "event" ++ ([colon, space] ++ utf8 value) := by
    rw [utf8_append, ← List.append_assoc]
    congr 1
  rw [split, line_field (by decide) (by decide), field_event]

theorem line_data (value : String) :
    (c.line (utf8 ("data: " ++ value))).1 = { c with data := c.data ++ utf8 value ++ [lf] } := by
  have split : utf8 ("data: " ++ value) = ascii "data" ++ ([colon, space] ++ utf8 value) := by
    rw [utf8_append, ← List.append_assoc]
    congr 1
  rw [split, line_field (by decide) (by decide), field_data]

theorem line_id (n : Nat) :
    (c.line (utf8 ("id: " ++ toString n))).1 = { c with idBuffer := utf8 (toString n) } := by
  have split : utf8 ("id: " ++ toString n) =
      ascii "id" ++ ([colon, space] ++ utf8 (toString n)) := by
    rw [utf8_append, ← List.append_assoc]
    congr 1
  have no_nul : (0 : UInt8) ∉ utf8 (toString n) := by
    intro mem
    obtain ⟨d, listed, here⟩ := List.mem_flatMap.mp mem
    have listed : d ∈ Nat.toDigits 10 n := Nat.toList_repr ▸ listed
    have digit : d.isDigit = true := Nat.isDigit_of_mem_toDigits (by decide) (by decide) listed
    have zero : d.toNat = 0 := low_mem_utf8EncodeChar (by decide) here
    have same : d = '\x00' := Char.ext (UInt32.toNat_inj.mp zero)
    rw [same] at digit
    exact absurd digit (by decide)
  rw [split, line_field (by decide) (by decide), field_id no_nul]

theorem block_typed (idle : Idle c) (type : String) (typed : type ≠ "") (data : String) :
    c.block [utf8 ("event: " ++ type), utf8 ("data: " ++ data)] =
      (⟨[], [], c.idBuffer, c.idBuffer⟩, [⟨utf8 type, utf8 data⟩]) := by
  obtain ⟨no_type, no_data, -⟩ := idle
  have named : utf8 type ≠ [] := fun nothing => typed (WriteBuffer.utf8_eq_nil_iff.mp nothing)
  simp [Client.block, Client.lines, line_event, line_data, Client.dispatch, no_data, named]

theorem block_message (idle : Idle c) (m : Message) :
    c.block m.lines = (⟨[], [], knownId c.idBuffer m, knownId c.idBuffer m⟩, m.event.toList) := by
  cases m with
  | broadcast eventName id data =>
      obtain ⟨no_type, no_data, -⟩ := idle
      simp only [Client.block, Client.lines, Message.lines, List.foldl_cons, List.foldl_nil,
        line_event, line_id, line_data]
      by_cases unnamed : eventName = ""
      · subst unnamed
        simp [Client.dispatch, knownId, Message.id, Message.event, utf8, no_data]
      · have named : utf8 eventName ≠ [] := fun nothing =>
          unnamed (WriteBuffer.utf8_eq_nil_iff.mp nothing)
        simp [Client.dispatch, knownId, Message.id, Message.event, unnamed, named, no_data]
  | init items =>
      have same : utf8 "init" = ascii "init" := by decide
      rw [Message.event, ← same]
      exact block_typed idle "init" (by decide) items
  | resumed body =>
      have same : utf8 "resumed" = ascii "resumed" := by decide
      rw [Message.event, ← same]
      exact block_typed idle "resumed" (by decide) body
  | keepAlive =>
      obtain ⟨type, data, buffer, last⟩ := c
      obtain ⟨no_type, no_data, same⟩ := idle
      dsimp only at no_type no_data same
      subst no_type no_data same
      rfl

theorem blocks_messages (idle : Idle c) (messages : List Message) :
    (c.blocks (messages.map Message.lines)).2 = messages.filterMap Message.event ∧
    (c.blocks (messages.map Message.lines)).1.lastEventId =
      ((messages.filterMap Message.id).getLast?.map fun id => utf8 (toString id)).getD
        c.idBuffer := by
  induction messages generalizing c with
  | nil => exact ⟨rfl, idle.2.2⟩
  | cons m messages ih =>
      obtain ⟨events, last⟩ := ih (c := ⟨[], [], knownId c.idBuffer m, knownId c.idBuffer m⟩)
        ⟨rfl, rfl, rfl⟩
      rw [List.map_cons, Client.blocks, block_message idle m]
      constructor
      · rw [events]
        cases shown : m.event <;> simp [shown]
      · rw [last]
        cases named : m.id with
        | none => simp [named, knownId]
        | some id =>
            cases rest : messages.filterMap Message.id with
            | nil => simp [named, knownId, rest]
            | cons k rest_ids => simp [named, rest, List.getLast?_cons]

end Blocks

section Cuts

theorem length_utf8 (text : String) : (utf8 text).length = text.utf8ByteSize := by
  have bytes : (utf8 text).toByteArray = text.toByteArray := String.utf8Encode_toList
  rw [← List.size_toByteArray, bytes]
  rfl

theorem received_messages (messages : List Message) (bytes : Nat) : ∃ got : List Message,
    got <+: messages ∧ received bytes (messages.map Message.chunk) = got.map Message.chunk ∧
    arrived bytes (messages.map Message.lines) = got.map Message.lines := by
  induction messages generalizing bytes with
  | nil => exact ⟨[], List.nil_prefix, rfl, rfl⟩
  | cons m messages ih =>
      have size : (block m.lines).length = m.chunk.text.utf8ByteSize := by
        rw [← m.utf8_text, length_utf8]
        rfl
      simp only [List.map_cons, Resume.received, arrived, size]
      by_cases whole : m.chunk.text.utf8ByteSize ≤ bytes
      · obtain ⟨got, initial, chunks, blocks⟩ := ih (bytes - m.chunk.text.utf8ByteSize)
        rw [if_pos whole, if_pos whole, chunks, blocks]
        exact ⟨m :: got, List.cons_prefix_cons.mpr ⟨rfl, initial⟩, rfl, rfl⟩
      · rw [if_neg whole, if_neg whole]
        exact ⟨[], List.nil_prefix, rfl, rfl⟩

end Cuts

def streamBytes (stream : List Chunk) : Bytes := stream.flatMap fun chunk => utf8 chunk.text

/-- Events are broadcast under names without line breaks, and every body is a serialised value. -/
def Serialised (double : DoubleText) (_ : Config Shared Pc) : Label Pc Reply → Prop
  | .spawn (.assignId eventName data) =>
      Printable eventName ∧ ∃ value, data = serialize double value
  | .spawn _ => True
  | .act _ r => (∃ value, r.items = serialize double value) ∧
      ∀ body ∈ r.resumed, ∃ value, body = serialize double value

def Speaks (chunk : Chunk) : Prop := ∃ m : Message, m.Fits ∧ chunk = m.chunk

def InHand : Pc → Prop
  | .assignId eventName data => Printable eventName ∧ Printable data
  | .takeSnapshot e => Speaks e.chunk
  | .sendAll e _ => Speaks e.chunk
  | .sendMissed entries => ∀ e ∈ entries, Speaks e.chunk
  | _ => True

/-- Nothing but messages is stored or on a stream. -/
structure Wired (s : Shared) : Prop where
  history : ∀ e ∈ s.history, Speaks e.chunk
  streams : ∀ i, ∀ chunk ∈ (s.subscriber i).stream, Speaks chunk

section Steps

variable {s s' : Shared} {pc pc' : Pc} {i : Nat} {r : Reply}

theorem Wired.send (wired : Wired s) (t : Nat) {chunk : Chunk} (speaks : Speaks chunk) :
    Wired (send s t chunk) where
  history := wired.history
  streams := by
    intro j
    rw [Streams.subscriber_send]
    split
    · rename_i same
      subst same
      intro other mem
      unfold SseSubscriber.send at mem
      split at mem
      · exact wired.streams t other mem
      · rcases List.mem_append.mp mem with mem | mem
        · exact wired.streams t other mem
        · rw [List.mem_singleton.mp mem]
          exact speaks
    · exact wired.streams j

theorem Wired.close (wired : Wired s) (t : Nat) : Wired (close s t) where
  history := wired.history
  streams := by
    intro j
    rw [Streams.subscriber_close]
    split
    · rename_i same
      subst same
      exact wired.streams t
    · exact wired.streams j

theorem newEntry_chunk (s : Shared) (eventName data : String) :
    (Streams.newEntry s eventName data).chunk =
      (Message.broadcast eventName s.nextId data).chunk := rfl

private theorem broadcast_wired (wired : Wired s) (hand : InHand pc)
    (stepped : broadcastStep s pc = some (s', pc')) : Wired s' ∧ InHand pc' := by
  cases pc <;> simp only [broadcastStep, reduceCtorEq] at stepped
  case assignId eventName data =>
    cases stepped
    have speaks : Speaks (Streams.newEntry s eventName data).chunk := by
      rw [newEntry_chunk]
      exact ⟨.broadcast eventName s.nextId data, hand, rfl⟩
    refine ⟨⟨?_, wired.streams⟩, speaks⟩
    intro e mem
    rcases Streams.mem_history_assign mem with old | rfl
    · exact wired.history e old
    · exact speaks
  case takeSnapshot e =>
    cases stepped
    exact ⟨wired, hand⟩
  case sendAll e rest =>
    cases rest with
    | nil =>
        cases stepped
        exact ⟨wired, trivial⟩
    | cons t rest =>
        cases stepped
        exact ⟨wired.send t hand, hand⟩

private theorem connection_wired (double : DoubleText) (wired : Wired s) (hand : InHand pc)
    (items : ∃ value, r.items = serialize double value)
    (resumed : ∀ body ∈ r.resumed, ∃ value, body = serialize double value)
    (stepped : connectionStep i s pc r = some (s', pc')) : Wired s' ∧ InHand pc' := by
  cases pc <;> simp only [connectionStep, reduceCtorEq] at stepped
  case add lastEventId =>
    cases stepped
    refine ⟨⟨wired.history, ?_⟩, by split <;> trivial⟩
    intro j chunk mem
    by_cases own : j = i
    · subst own
      simp at mem
    · dsimp only at mem
      rw [Function.update_of_ne own] at mem
      exact wired.streams j chunk mem
  case replay lastEventId =>
    cases stepped
    exact ⟨wired, fun e mem => wired.history e (List.mem_filter.mp mem).1⟩
  case sendMissed entries =>
    cases entries with
    | nil =>
        cases stepped
        exact ⟨wired, trivial⟩
    | cons e entries =>
        cases stepped
        exact ⟨wired.send i (hand e List.mem_cons_self), fun other mem =>
          hand other (List.mem_cons_of_mem _ mem)⟩
  case sendInit =>
    cases stepped
    obtain ⟨value, same⟩ := items
    refine ⟨wired.send i ⟨.init r.items, ?_, rfl⟩, trivial⟩
    rw [same]
    exact printable_serialize double value
  case sendResumed =>
    cases stepped
    refine ⟨?_, trivial⟩
    split
    · rename_i body found
      obtain ⟨value, rfl⟩ := resumed body found
      exact wired.send i
        ⟨.resumed (serialize double value), printable_serialize double value, rfl⟩
    · exact wired
  case keepAlive =>
    split at stepped <;> cases stepped
    · exact ⟨wired.send i ⟨.keepAlive, trivial, rfl⟩, trivial⟩
    · exact ⟨wired, trivial⟩
  case remove =>
    cases stepped
    exact ⟨⟨wired.history, wired.streams⟩, trivial⟩

private theorem close_wired (wired : Wired s) (stepped : closeStep s pc = some (s', pc')) :
    Wired s' ∧ InHand pc' := by
  cases pc <;> simp only [closeStep, reduceCtorEq] at stepped
  case failWrite t =>
    cases stepped
    exact ⟨wired.close t, trivial⟩
  case closeAll =>
    cases stepped
    exact ⟨⟨wired.history, wired.streams⟩, trivial⟩
  case closeEach rest =>
    cases rest with
    | nil =>
        cases stepped
        exact ⟨wired, trivial⟩
    | cons t rest =>
        cases stepped
        exact ⟨wired.close t, trivial⟩

theorem wired_reach (double : DoubleText) {c : Config Shared Pc}
    (reach : Reach broker (Serialised double) ⟨{}, []⟩ c) :
    Wired c.shared ∧ ∀ pc ∈ c.procs, InHand pc := by
  refine reach.invariant (I := fun c => Wired c.shared ∧ ∀ pc ∈ c.procs, InHand pc) ?_ ?_
  · refine ⟨⟨?_, ?_⟩, ?_⟩
    · intro e mem
      cases mem
    · intro t chunk mem
      cases mem
    · intro pc mem
      cases mem
  · rintro c d l ⟨wired, places⟩ guard moved
    rcases next_cases moved with ⟨p, rfl, entry, rfl⟩ | ⟨j, r, p, s, q, rfl, at_j, stepped, rfl⟩
    · refine ⟨wired, ?_⟩
      intro pc mem
      rcases List.mem_append.mp mem with mem | mem
      · exact places pc mem
      · rw [List.mem_singleton.mp mem]
        cases p <;> first | trivial | (cases entry; done) | skip
        obtain ⟨name, value, rfl⟩ := guard
        exact ⟨name, printable_serialize double value⟩
    · have hand := places p (List.mem_of_getElem? at_j)
      have after : Wired s ∧ InHand q := by
        rcases broker_step stepped with stepped | stepped | stepped
        · exact broadcast_wired wired hand stepped
        · exact connection_wired double wired hand guard.1 guard.2 stepped
        · exact close_wired wired stepped
      refine ⟨after.1, ?_⟩
      intro pc mem
      rcases List.mem_or_eq_of_mem_set mem with mem | same
      · exact places pc mem
      · rw [same]
        exact after.2

theorem exists_messages {stream : List Chunk} (speaks : ∀ chunk ∈ stream, Speaks chunk) :
    ∃ messages : List Message, (∀ m ∈ messages, m.Fits) ∧ stream = messages.map Message.chunk := by
  induction stream with
  | nil => exact ⟨[], by simp, rfl⟩
  | cons chunk rest ih =>
      obtain ⟨m, own, rfl⟩ := speaks chunk List.mem_cons_self
      obtain ⟨messages, fits, rfl⟩ := ih fun other mem => speaks other (List.mem_cons_of_mem _ mem)
      exact ⟨m :: messages, List.forall_mem_cons.mpr ⟨own, fits⟩, rfl⟩

end Steps

/-- `handle_sse` on the header `Last-Event-ID`. -/
def lastEventIdOf (header : Option String) : Int := (header.bind stoll).getD 0

def headerOf (ids : List Nat) : Option String := ids.getLast?.map toString

theorem lastEventIdOf_header {ids : List Nat} (small : ∀ k ∈ ids, k < 2 ^ 63) :
    lastEventIdOf (headerOf ids) = ((ids.getLast?.getD 0 : Nat) : Int) := by
  cases last : ids.getLast? with
  | none => simp [lastEventIdOf, headerOf, last]
  | some k =>
      have fits := small k (List.mem_of_getLast? last)
      have read : stoll (toString k) = some (k : Int) := stoll_toString (by omega)
      simp only [lastEventIdOf, headerOf, last, Option.map_some, Option.bind_some, read,
        Option.getD_some]

/-- Whatever has been broadcast and however many bytes of its stream a subscriber has received, its
client has dispatched the events of the complete chunks, with their names and data, and no others; and
what it sends back on a reconnect is read as the id of the last of them. -/
theorem client_reads (double : DoubleText) (c : Config Shared Pc)
    (reach : Reach broker (Serialised double) ⟨{}, []⟩ c) (i bytes : Nat) :
    let stream := (c.shared.subscriber i).stream
    let client := ({} : Reader).read ((streamBytes stream).take bytes)
    let ids := receivedIds bytes c.shared i
    (∃ messages : List Message, (∀ m ∈ messages, m.Fits) ∧ stream = messages.map Message.chunk) ∧
    (∀ messages : List Message, (∀ m ∈ messages, m.Fits) → stream = messages.map Message.chunk →
      client.2 = (messages.take (received bytes stream).length).filterMap Message.event) ∧
    client.1.client.lastEventId = ((headerOf ids).map utf8).getD [] ∧
    ((∀ k ∈ ids, k < 2 ^ 63) → lastEventIdOf (headerOf ids) = ((ids.getLast?.getD 0 : Nat) : Int)) := by
  intro stream client ids
  have made := exists_messages ((wired_reach double reach).1.streams i)
  have shown : ∀ messages : List Message, (∀ m ∈ messages, m.Fits) →
      stream = messages.map Message.chunk →
      client.2 = (messages.take (received bytes stream).length).filterMap Message.event ∧
        client.1.client.lastEventId = ((headerOf ids).map utf8).getD [] := by
    intro messages fits whole
    obtain ⟨got, initial, chunks, blocks⟩ := received_messages messages bytes
    have filled : ∀ b ∈ messages.map Message.lines, ∀ line ∈ b, Filled line := by
      intro b mem
      obtain ⟨m, listed, rfl⟩ := List.mem_map.mp mem
      exact Message.filled (fits m listed)
    obtain ⟨events, last⟩ := read_take (c := {}) filled bytes
    have joined : (messages.map Message.lines).flatMap block = streamBytes stream := by
      rw [whole, streamBytes, List.flatMap_map, List.flatMap_map]
      exact List.flatMap_congr fun m _ => m.utf8_text.symm
    have idle : Idle {} := ⟨rfl, rfl, rfl⟩
    obtain ⟨dispatched, known⟩ := blocks_messages idle got
    rw [joined, blocks] at events last
    have taken : messages.take (received bytes stream).length = got := by
      rw [whole, chunks, List.length_map]
      exact (List.prefix_iff_eq_take.mp initial).symm
    have named : ids = got.filterMap Message.id := by
      have received_ids : ids = (received bytes stream).filterMap Chunk.id := rfl
      rw [received_ids, whole, chunks, List.filterMap_map]
      rfl
    refine ⟨taken ▸ events.trans dispatched, ?_⟩
    rw [named, headerOf, Option.map_map]
    exact last.trans known
  obtain ⟨messages, fits, whole⟩ := made
  exact ⟨⟨messages, fits, whole⟩, fun others fits' whole' => (shown others fits' whole').1,
    (shown messages fits whole).2, lastEventIdOf_header⟩

section Sample

/-- Scientific notation with the digits of a rational up to the 17th decimal place. -/
def scientificText (q : ℚ) : String :=
  let digits := Nat.toDigits 10 (q.num.natAbs * 10 ^ 17 / q.den)
  let decimals := (digits.tail.reverse.dropWhile (· = '0')).reverse
  (if q < 0 then "-" else "") ++ String.ofList (digits.take 1) ++
    (if decimals = [] then "" else "." ++ String.ofList decimals) ++ "E" ++
    toString (if q = 0 then (0 : Int) else digits.length - 18)

def scientific : DoubleText where
  text := scientificText
  printable := by
    intro q
    have decimal : ∀ c ∈ Nat.toDigits 10 (q.num.natAbs * 10 ^ 17 / q.den), c.isDigit = true :=
      fun c mem => Nat.isDigit_of_mem_toDigits (by decide) (by decide) mem
    have sign : Printable (if q < 0 then "-" else "") := by
      split <;> decide
    have first := printable_digits fun c mem => decimal c (List.mem_of_mem_take (i := 1) mem)
    have point : Printable "." := by decide
    have exponent : Printable "E" := by decide
    unfold scientificText
    refine ((((sign.append first).append ?_).append exponent).append (printable_int _))
    split
    · decide
    · refine point.append (printable_digits ?_)
      intro c mem
      have kept := List.dropWhile_subset _ (List.mem_reverse.mp mem)
      exact decimal c (List.mem_of_mem_tail (List.mem_reverse.mp kept))

/-- A hook whose body would end its event and begin another one, if its text were sent as it is. -/
def forgingHook : Json :=
  .object [("id", .int64 1), ("received_at", .string "2026-09-23T15:08:23Z"),
    ("source", .string "custom"), ("message_type", .string ""),
    ("body", .string "x\n\nevent: cleared\ndata: {}\n\n"), ("remote_ip", .string "")]

def halfway : Json :=
  .object [("source", .string "ozon"), ("percent", .double (mkRat 25 2))]

def noHooks : Json := .object [("items", .array [])]

def greeting : Reply := { items := serialize scientific noHooks }

def schedule : List (Label Pc Reply) :=
  [.spawn (.add 0), .act 0 greeting, .act 0 greeting,
    .spawn (.assignId "hook" (serialize scientific forgingHook)), .act 1 greeting, .act 1 greeting,
    .act 1 greeting,
    .spawn (.assignId "progress" (serialize scientific halfway)), .act 2 greeting, .act 2 greeting,
    .act 2 greeting]

def broadcastTwice : Config Shared Pc := Resume.played (fun _ _ => true) ⟨{}, []⟩ schedule

def sentMessages : List Message :=
  [.init (serialize scientific noHooks), .broadcast "hook" 1 (serialize scientific forgingHook),
    .broadcast "progress" 2 (serialize scientific halfway)]

private theorem greeting_serialised (c : Config Shared Pc) (i : Nat) :
    Serialised scientific c (.act i greeting) :=
  ⟨⟨noHooks, rfl⟩, by simp [greeting]⟩

private theorem broadcastTwice_reach :
    Reach broker (Serialised scientific) ⟨{}, []⟩ broadcastTwice := by
  have whole : (broker.run (fun _ _ => true) ⟨{}, []⟩ schedule).isSome = true := by decide
  obtain ⟨d, run⟩ := Option.isSome_iff_exists.mp whole
  have last : broadcastTwice = d := by simp [broadcastTwice, Resume.played, run]
  rw [last]
  refine reach_of_schedule ?_ run
  intro l mem c _
  simp only [schedule, List.mem_cons, List.not_mem_nil, or_false] at mem
  rcases mem with rfl | rfl | rfl | rfl | rfl | rfl | rfl | rfl | rfl | rfl | rfl
  case inr.inr.inr.inl => exact ⟨by decide, forgingHook, rfl⟩
  case inr.inr.inr.inr.inr.inr.inr.inl => exact ⟨by decide, halfway, rfl⟩
  all_goals first | trivial | exact greeting_serialised c _

set_option maxRecDepth 8000 in
private theorem stream_sent :
    (broadcastTwice.shared.subscriber 0).stream = sentMessages.map Message.chunk := by decide

set_option maxRecDepth 8000 in
private theorem received_two :
    received 250 (sentMessages.map Message.chunk) = (sentMessages.take 2).map Message.chunk := by
  decide

private theorem sentMessages_fit : ∀ m ∈ sentMessages, m.Fits := by
  have printable := printable_serialize scientific
  have names : Printable "hook" ∧ Printable "progress" := by decide
  intro m mem
  simp only [sentMessages, List.mem_cons, List.not_mem_nil, or_false] at mem
  rcases mem with rfl | rfl | rfl
  · exact printable noHooks
  · exact ⟨names.1, printable forgingHook⟩
  · exact ⟨names.2, printable halfway⟩

private theorem known_ids : receivedIds 250 broadcastTwice.shared 0 = [1] := by
  rw [receivedIds, stream_sent, received_two]
  rfl

theorem client_reads_cut :
    (({} : Reader).read ((streamBytes (broadcastTwice.shared.subscriber 0).stream).take 250)).2 = [
      { type := ascii "init", data := utf8 (serialize scientific noHooks) },
      { type := ascii "hook", data := utf8 (serialize scientific forgingHook) }] ∧
    (({} : Reader).read
      ((streamBytes (broadcastTwice.shared.subscriber 0).stream).take 250)).1.client.lastEventId =
        utf8 "1" ∧
    lastEventIdOf (headerOf (receivedIds 250 broadcastTwice.shared 0)) = 1 := by
  obtain ⟨-, shown, last, read⟩ := client_reads scientific broadcastTwice broadcastTwice_reach 0 250
  have events := shown sentMessages sentMessages_fit stream_sent
  rw [known_ids] at last read
  rw [stream_sent, received_two, List.length_map] at events
  rw [stream_sent] at last ⊢
  have header : headerOf [1] = some "1" := by decide
  have hook : utf8 "hook" = ascii "hook" := by decide
  refine ⟨events.trans ?_, ?_, ?_⟩
  · simp [sentMessages, Message.event, hook]
  · rw [last, header]
    rfl
  · rw [known_ids, read (by decide)]
    rfl

end Sample

end Scand.Sse.ClientView
