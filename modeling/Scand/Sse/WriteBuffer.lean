/- path: Scand/Sse/WriteBuffer
   layer: code model and results
   digest: SseSubscriber with its buffer and its writes as atomic steps: one write at a time, every byte
   in order, and none left behind. -/

import Scand.Sse.Broker

set_option autoImplicit false
set_option relaxedAutoImplicit false

namespace Scand.Sse.WriteBuffer

open Scand.Foundation.Interleaving

abbrev Bytes := List UInt8

/-- The members behind `write_mutex_`, with the time of the last write. -/
structure SseSubscriber where
  writeBuf : Bytes := []
  isOpen : Bool := true
  writing : Bool := false
  lastWriteRep : Int := 0
  deriving DecidableEq

structure Reply where
  ec : Bool := false
  now : Int := 0

inductive Pc
  -- send, whose data may be a null pointer, up to the end of its lock
  | send (data : Option Bytes)
  -- close
  | close
  -- do_write: its lock, the call of async_write, and the write that it started
  | doWrite | asyncWrite (chunk : Bytes) | outstanding (chunk : Bytes)
  -- the completion handler
  | completed (ec : Bool)
  | finished
  deriving DecidableEq

def step (s : SseSubscriber) (pc : Pc) (r : Reply) : Option (SseSubscriber × Pc) :=
  match pc with
  | .send none => some (s, .finished)
  | .send (some data) =>
      if data = [] ∨ s.isOpen = false then some (s, .finished)
      else
        let s := { s with writeBuf := s.writeBuf ++ data }
        if s.writing then some (s, .finished) else some ({ s with writing := true }, .doWrite)
  | .close => some ({ s with isOpen := false }, .finished)
  | .doWrite =>
      if s.writeBuf = [] then some ({ s with writing := false }, .finished)
      else some ({ s with writeBuf := [] }, .asyncWrite s.writeBuf)
  | .asyncWrite chunk => some (s, .outstanding chunk)
  | .outstanding _ => some (s, .completed r.ec)
  | .completed ec =>
      let s := { s with lastWriteRep := r.now }
      if ec then some ({ s with isOpen := false, writing := false }, .finished)
      else if s.writeBuf ≠ [] then some (s, .doWrite)
      else some ({ s with writing := false }, .finished)
  | .finished => none

def isCall : Pc → Bool
  | .send _ | .close => true
  | _ => false

def subscriber : Machine SseSubscriber Pc Reply where
  entry := isCall
  step _ := step

/-- The payloads that `send` accepted, the chunks that `do_write` took out of the buffer and those that
were handed to `async_write`, each in order. -/
structure Note where
  accepted : List Bytes := []
  taken : List Bytes := []
  handed : List Bytes := []

def noted (s : SseSubscriber) (n : Note) : Pc → Note
  | .send (some data) =>
      if data = [] ∨ s.isOpen = false then n else { n with accepted := n.accepted ++ [data] }
  | .doWrite => if s.writeBuf = [] then n else { n with taken := n.taken ++ [s.writeBuf] }
  | .asyncWrite chunk => { n with handed := n.handed ++ [chunk] }
  | _ => n

abbrev noting : Machine (SseSubscriber × Note) Pc Reply := subscriber.tracking noted

inductive Moves (s : SseSubscriber) (n : Note) : Pc → SseSubscriber → Note → Pc → Prop
  | refused (data : Option Bytes) : Moves s n (.send data) s n .finished
  | joined (data : Bytes) : s.isOpen = true → s.writing = true →
      Moves s n (.send (some data)) { s with writeBuf := s.writeBuf ++ data }
        { n with accepted := n.accepted ++ [data] } .finished
  | started (data : Bytes) : s.isOpen = true → s.writing = false →
      Moves s n (.send (some data)) { s with writeBuf := s.writeBuf ++ data, writing := true }
        { n with accepted := n.accepted ++ [data] } .doWrite
  | closed : Moves s n .close { s with isOpen := false } n .finished
  | idled : s.writeBuf = [] → Moves s n .doWrite { s with writing := false } n .finished
  | took : Moves s n .doWrite { s with writeBuf := [] }
      { n with taken := n.taken ++ [s.writeBuf] } (.asyncWrite s.writeBuf)
  | handed (chunk : Bytes) : Moves s n (.asyncWrite chunk) s
      { n with handed := n.handed ++ [chunk] } (.outstanding chunk)
  | completed (chunk : Bytes) (ec : Bool) : Moves s n (.outstanding chunk) s n (.completed ec)
  | failed (now : Int) : Moves s n (.completed true)
      { s with lastWriteRep := now, isOpen := false, writing := false } n .finished
  | continued (now : Int) : Moves s n (.completed false) { s with lastWriteRep := now } n .doWrite
  | drained (now : Int) : s.writeBuf = [] →
      Moves s n (.completed false) { s with lastWriteRep := now, writing := false } n .finished

/-- Whether a place belongs to the one who writes: `writing_` is set for it. -/
def writes : Pc → Bool
  | .doWrite | .asyncWrite _ | .outstanding _ | .completed _ => true
  | _ => false

def isOutstanding : Pc → Bool
  | .outstanding _ => true
  | _ => false

/-- A place behind the lock of `send`, inside `do_write` or inside the completion handler. -/
def midway : Pc → Bool
  | .doWrite | .asyncWrite _ | .completed _ => true
  | _ => false

section Steps

variable {i : Nat} {s s' : SseSubscriber} {n n' : Note} {pc pc' : Pc} {r : Reply}

theorem moves_of_step (stepped : noting.step i (s, n) pc r = some ((s', n'), pc')) :
    Moves s n pc s' n' pc' := by
  obtain ⟨inner, note⟩ := tracking_step stepped
  have moved : step s pc r = some (s', pc') := inner
  have kept : n' = noted s n pc := note
  subst kept
  cases pc with
  | send data =>
      cases data with
      | none =>
          cases moved
          exact .refused none
      | some data =>
          by_cases refuses : data = [] ∨ s.isOpen = false
          · rw [step, if_pos refuses] at moved
            cases moved
            rw [noted, if_pos refuses]
            exact .refused (some data)
          · rw [step, if_neg refuses] at moved
            rw [noted, if_neg refuses]
            have opened : s.isOpen = true := by
              rw [not_or, Bool.not_eq_false] at refuses
              exact refuses.2
            dsimp only at moved
            split at moved
            · rename_i busy
              cases moved
              exact .joined data opened busy
            · rename_i free
              cases moved
              exact .started data opened (Bool.not_eq_true _ |>.mp free)
  | close =>
      cases moved
      exact .closed
  | doWrite =>
      by_cases empty : s.writeBuf = []
      · rw [step, if_pos empty] at moved
        cases moved
        rw [noted, if_pos empty]
        exact .idled empty
      · rw [step, if_neg empty] at moved
        cases moved
        rw [noted, if_neg empty]
        exact .took
  | asyncWrite chunk =>
      cases moved
      exact .handed chunk
  | outstanding chunk =>
      cases moved
      exact .completed chunk r.ec
  | completed ec =>
      cases ec with
      | true =>
          cases moved
          exact .failed r.now
      | false =>
          have proceeds : (if s.writeBuf ≠ [] then
              some ({ s with lastWriteRep := r.now }, Pc.doWrite)
            else some ({ s with lastWriteRep := r.now, writing := false }, .finished)) =
              some (s', pc') := moved
          split at proceeds
          · cases proceeds
            exact .continued r.now
          · rename_i empty
            cases proceeds
            exact .drained r.now (not_not.mp empty)
  | finished => cases moved

end Steps

/-- What holds of a subscriber, of everything that went through it and of the calls on it. -/
structure Sound (c : Config (SseSubscriber × Note) Pc) : Prop where
  pen : TokenCount (fun s => s.1.writing) writes c
  bytes : c.shared.2.accepted.flatten = c.shared.2.taken.flatten ++ c.shared.1.writeBuf
  inHand : ∀ chunk, .asyncWrite chunk ∈ c.procs → c.shared.2.taken = c.shared.2.handed ++ [chunk]
  allHanded : (∀ chunk, .asyncWrite chunk ∉ c.procs) → c.shared.2.taken = c.shared.2.handed
  idle : c.shared.1.writing = false → c.shared.1.isOpen = true → c.shared.1.writeBuf = []

def fresh (start : Int) : Config (SseSubscriber × Note) Pc := ⟨({ lastWriteRep := start }, {}), []⟩

theorem sound_fresh (start : Int) : Sound (fresh start) where
  pen := rfl
  bytes := rfl
  inHand := fun _ mem => absurd mem List.not_mem_nil
  allHanded := fun _ => rfl
  idle := fun _ _ => rfl

section Runs

variable {c d : Config (SseSubscriber × Note) Pc} {i : Nat}

theorem entry_writes {p : Pc} (entry : noting.entry p = true) :
    writes p = false ∧ ∀ chunk, Pc.asyncWrite chunk ≠ p := by
  have call : isCall p = true := entry
  cases p <;> first | exact ⟨rfl, fun _ => Pc.noConfusion⟩ | cases call

theorem Sound.only_writer (sound : Sound c) {j : Nat} {p q : Pc} (at_i : c.procs[i]? = some p)
    (at_j : c.procs[j]? = some q) (writes_p : writes p = true) (writes_q : writes q = true) :
    i = j := by
  have one : c.procs.countP writes ≤ 1 := by
    rw [sound.pen]
    exact Bool.toNat_le _
  exact eq_of_countP_le_one one at_i at_j writes_p writes_q

theorem Sound.no_other_chunk (sound : Sound c) {p : Pc} (at_i : c.procs[i]? = some p)
    (writes_p : writes p = true) {chunk : Bytes} (mem : .asyncWrite chunk ∈ c.procs) :
    p = .asyncWrite chunk := by
  obtain ⟨j, at_j⟩ := List.mem_iff_getElem?.mp mem
  obtain rfl := sound.only_writer at_i at_j writes_p rfl
  exact Option.some.inj (at_i.symm.trans at_j)

theorem chunks_kept {procs : List Pc} {p q : Pc} (at_i : procs[i]? = some p)
    (other : ∀ chunk, Pc.asyncWrite chunk ≠ p) (other' : ∀ chunk, Pc.asyncWrite chunk ≠ q)
    (chunk : Bytes) : Pc.asyncWrite chunk ∈ procs.set i q ↔ .asyncWrite chunk ∈ procs :=
  mem_set_iff at_i (other chunk) (other' chunk)

theorem Sound.pen_step (sound : Sound c) {p q : Pc} {s : SseSubscriber} {n : Note}
    (at_i : c.procs[i]? = some p) (moves : Moves c.shared.1 c.shared.2 p s n q) :
    TokenBalanced (fun s => s.1.writing) writes c.shared p (s, n) q := by
  have held : writes p = true → c.shared.1.writing = true := sound.pen.held at_i
  unfold TokenBalanced
  cases moves with
  | refused data => rfl
  | joined data opened busy => rfl
  | started data opened free =>
      have free' : c.shared.1.writing.toNat = 0 := by rw [free]; rfl
      exact congrArg (1 + ·) free'
  | closed => rfl
  | idled empty => exact congrArg (0 + ·) (congrArg Bool.toNat (held rfl))
  | took => rfl
  | handed chunk => rfl
  | completed chunk ec => rfl
  | failed now => exact congrArg (0 + ·) (congrArg Bool.toNat (held rfl))
  | continued now => rfl
  | drained now empty => exact congrArg (0 + ·) (congrArg Bool.toNat (held rfl))

theorem Sound.bytes_step (sound : Sound c) {p q : Pc} {s : SseSubscriber} {n : Note}
    (moves : Moves c.shared.1 c.shared.2 p s n q) :
    n.accepted.flatten = n.taken.flatten ++ s.writeBuf := by
  have bytes := sound.bytes
  cases moves with
  | joined data opened busy =>
      show (c.shared.2.accepted ++ [data]).flatten = _
      rw [List.flatten_append, List.flatten_singleton, bytes, List.append_assoc]
  | started data opened free =>
      show (c.shared.2.accepted ++ [data]).flatten = _
      rw [List.flatten_append, List.flatten_singleton, bytes, List.append_assoc]
  | took =>
      show c.shared.2.accepted.flatten = (c.shared.2.taken ++ [c.shared.1.writeBuf]).flatten ++ []
      rw [List.flatten_append, List.flatten_singleton, List.append_nil]
      exact bytes
  | refused data => exact bytes
  | closed => exact bytes
  | idled empty => exact bytes
  | handed chunk => exact bytes
  | completed chunk ec => exact bytes
  | failed now => exact bytes
  | continued now => exact bytes
  | drained now empty => exact bytes

theorem Sound.idle_step (sound : Sound c) {p q : Pc} {s : SseSubscriber} {n : Note}
    (moves : Moves c.shared.1 c.shared.2 p s n q) (free : s.writing = false)
    (opened : s.isOpen = true) : s.writeBuf = [] := by
  have idle := sound.idle
  cases moves with
  | refused data => exact idle free opened
  | joined data _ busy =>
      have busy' : c.shared.1.writing = false := free
      rw [busy] at busy'
      cases busy'
  | started data _ _ => cases free
  | closed => cases opened
  | idled empty => exact empty
  | took => rfl
  | handed chunk => exact idle free opened
  | completed chunk ec => exact idle free opened
  | failed now => cases opened
  | continued now => exact idle free opened
  | drained now empty => exact empty

theorem Sound.hand_step (sound : Sound c) {p q : Pc} {s : SseSubscriber} {n : Note}
    (at_i : c.procs[i]? = some p) (moves : Moves c.shared.1 c.shared.2 p s n q) :
    (∀ chunk, .asyncWrite chunk ∈ c.procs.set i q → n.taken = n.handed ++ [chunk]) ∧
      ((∀ chunk, .asyncWrite chunk ∉ c.procs.set i q) → n.taken = n.handed) := by
  have untouched : n.taken = c.shared.2.taken → n.handed = c.shared.2.handed →
      (∀ chunk, Pc.asyncWrite chunk ≠ p) → (∀ chunk, Pc.asyncWrite chunk ≠ q) →
      (∀ chunk, .asyncWrite chunk ∈ c.procs.set i q → n.taken = n.handed ++ [chunk]) ∧
        ((∀ chunk, .asyncWrite chunk ∉ c.procs.set i q) → n.taken = n.handed) := by
    intro taken handed other other'
    have kept := chunks_kept at_i other other'
    rw [taken, handed]
    exact ⟨fun chunk mem => sound.inHand chunk ((kept chunk).mp mem),
      fun none_left => sound.allHanded fun chunk mem => none_left chunk ((kept chunk).mpr mem)⟩
  cases moves with
  | took =>
      have none_before : ∀ chunk, Pc.asyncWrite chunk ∉ c.procs := by
        intro chunk mem
        cases sound.no_other_chunk at_i rfl mem
      have before := sound.allHanded none_before
      constructor
      · intro chunk mem
        rcases mem_set_cases mem with same | ⟨j, -, at_j⟩
        · cases same
          show c.shared.2.taken ++ [c.shared.1.writeBuf] = _
          rw [before]
        · exact absurd (List.mem_of_getElem? at_j) (none_before chunk)
      · intro none_left
        have bound := (List.getElem?_eq_some_iff.mp at_i).1
        exact absurd (List.mem_of_getElem? (List.getElem?_set_self bound)) (none_left _)
  | handed chunk =>
      have before := sound.inHand chunk (List.mem_of_getElem? at_i)
      constructor
      · intro other mem
        rcases mem_set_cases mem with same | ⟨j, apart, at_j⟩
        · cases same
        · exact absurd (sound.only_writer at_i at_j rfl rfl) apart
      · exact fun _ => before
  | refused data => exact untouched rfl rfl (fun _ => Pc.noConfusion) fun _ => Pc.noConfusion
  | joined data _ _ => exact untouched rfl rfl (fun _ => Pc.noConfusion) fun _ => Pc.noConfusion
  | started data _ _ => exact untouched rfl rfl (fun _ => Pc.noConfusion) fun _ => Pc.noConfusion
  | closed => exact untouched rfl rfl (fun _ => Pc.noConfusion) fun _ => Pc.noConfusion
  | idled _ => exact untouched rfl rfl (fun _ => Pc.noConfusion) fun _ => Pc.noConfusion
  | completed chunk ec =>
      exact untouched rfl rfl (fun _ => Pc.noConfusion) fun _ => Pc.noConfusion
  | failed now => exact untouched rfl rfl (fun _ => Pc.noConfusion) fun _ => Pc.noConfusion
  | continued now => exact untouched rfl rfl (fun _ => Pc.noConfusion) fun _ => Pc.noConfusion
  | drained now _ => exact untouched rfl rfl (fun _ => Pc.noConfusion) fun _ => Pc.noConfusion

theorem Sound.next {l : Label Pc Reply} (sound : Sound c) (next : noting.next c l = some d) :
    Sound d := by
  have pen : TokenCount (fun s => s.1.writing) writes d := by
    refine sound.pen.next next (fun p entry => (entry_writes entry).1) ?_
    intro i r p s q _ at_i stepped
    exact sound.pen_step at_i (moves_of_step stepped)
  rcases next_cases next with ⟨p, -, entry, rfl⟩ | ⟨i, r, p, ⟨s, n⟩, q, -, at_i, stepped, rfl⟩
  · have other := (entry_writes entry).2
    have kept : ∀ chunk, Pc.asyncWrite chunk ∈ c.procs ++ [p] ↔ .asyncWrite chunk ∈ c.procs := by
      intro chunk
      rw [List.mem_append, List.mem_singleton]
      exact or_iff_left (other chunk)
    exact {
      pen := pen
      bytes := sound.bytes
      inHand := fun chunk mem => sound.inHand chunk ((kept chunk).mp mem)
      allHanded := fun none_left =>
        sound.allHanded fun chunk mem => none_left chunk ((kept chunk).mpr mem)
      idle := sound.idle }
  · have moves := moves_of_step stepped
    obtain ⟨in_hand, all_handed⟩ := sound.hand_step at_i moves
    exact {
      pen := pen
      bytes := sound.bytes_step moves
      inHand := in_hand
      allHanded := all_handed
      idle := sound.idle_step moves }

theorem sound_of_reach {start : Int} (reach : Reach noting anyLabel (fresh start) c) : Sound c :=
  reach.invariant (sound_fresh start) fun _ _ _ sound _ next => sound.next next

/-- What was handed to `async_write` is a prefix of what was taken out of the buffer. -/
theorem Sound.handed_prefix (sound : Sound c) : c.shared.2.handed <+: c.shared.2.taken := by
  by_cases chunk : ∃ chunk, Pc.asyncWrite chunk ∈ c.procs
  · obtain ⟨chunk, mem⟩ := chunk
    rw [sound.inHand chunk mem]
    exact List.prefix_append _ _
  · have none_left : ∀ other, Pc.asyncWrite other ∉ c.procs := by
      intro other mem
      exact chunk ⟨other, mem⟩
    have same : c.shared.2.taken = c.shared.2.handed := sound.allHanded none_left
    exact ⟨[], (List.append_nil _).trans same.symm⟩

theorem Sound.outstanding (sound : Sound c) (busy : c.shared.1.writing = true)
    (settled : ∀ p ∈ c.procs, midway p = false) : ∃ p ∈ c.procs, isOutstanding p = true := by
  have one : 0 < c.procs.countP writes := by
    have count : c.procs.countP writes = c.shared.1.writing.toNat := sound.pen
    rw [busy] at count
    rw [count]
    decide
  obtain ⟨p, mem, writes_p⟩ := List.countP_pos_iff.mp one
  refine ⟨p, mem, ?_⟩
  have passive := settled p mem
  cases p with
  | outstanding chunk => rfl
  | doWrite => cases passive
  | asyncWrite chunk => cases passive
  | completed ec => cases passive
  | send data => cases writes_p
  | close => cases writes_p
  | finished => cases writes_p

end Runs

/-- At most one write is outstanding, the bytes of the writes are the accepted ones in order as far as
they go, and an open subscriber on which nobody is halfway has handed all of them over or writes. -/
theorem writes_in_order (start : Int) (c : Config (SseSubscriber × Note) Pc)
    (reach : Reach noting anyLabel (fresh start) c) :
    c.procs.countP isOutstanding ≤ 1 ∧
      c.shared.2.handed.flatten <+: c.shared.2.accepted.flatten ∧
      (c.shared.1.isOpen = true → (∀ p ∈ c.procs, midway p = false) →
        c.shared.2.handed.flatten = c.shared.2.accepted.flatten ∨
          ∃ p ∈ c.procs, isOutstanding p = true) := by
  have sound := sound_of_reach reach
  refine ⟨?_, ?_, ?_⟩
  · have fewer : c.procs.countP isOutstanding ≤ c.procs.countP writes := by
      apply List.countP_mono_left
      intro p _ waits
      cases p <;> first | rfl | cases waits
    rw [sound.pen] at fewer
    exact Nat.le_trans fewer (Bool.toNat_le _)
  · obtain ⟨rest, whole⟩ := sound.handed_prefix
    rw [sound.bytes, ← whole, List.flatten_append, List.append_assoc]
    exact List.prefix_append _ _
  · intro opened settled
    cases busy : c.shared.1.writing with
    | true => exact Or.inr (sound.outstanding busy settled)
    | false =>
        have taken := sound.allHanded fun chunk mem => by cases settled _ mem
        have empty := sound.idle busy opened
        left
        rw [sound.bytes, taken, empty, List.append_nil]

section Refinement

def utf8 (text : String) : Bytes := text.toList.flatMap String.utf8EncodeChar

theorem utf8_eq_nil_iff {text : String} : utf8 text = [] ↔ text = "" := by
  constructor
  · intro none_left
    rw [utf8, List.flatMap_eq_nil_iff] at none_left
    apply String.toList_eq_nil_iff.mp
    apply List.eq_nil_iff_forall_not_mem.mpr
    intro c mem
    exact String.utf8EncodeChar_ne_nil (none_left c mem)
  · rintro rfl
    rfl

/-- The subscriber as the broker sees it: whether it is open, and everything that was appended. -/
structure Represents (b : Broker.SseSubscriber) (s : SseSubscriber) (n : Note) : Prop where
  isOpen : s.isOpen = b.isOpen
  accepted : n.accepted = b.stream.map fun chunk => utf8 chunk.text

variable {b : Broker.SseSubscriber} {i : Nat} {s s' : SseSubscriber} {n n' : Note} {pc pc' : Pc}
  {r : Reply}

theorem Represents.send (rep : Represents b s n) {chunk : Broker.Chunk}
    (stepped : noting.step i (s, n) (.send (some (utf8 chunk.text))) r = some ((s', n'), pc')) :
    Represents (b.send chunk) s' n' := by
  obtain ⟨-, note⟩ := tracking_step stepped
  have same_open : s'.isOpen = s.isOpen := by
    cases moves_of_step stepped <;> rfl
  have kept : n' = noted s n (.send (some (utf8 chunk.text))) := note
  by_cases refuses : utf8 chunk.text = [] ∨ s.isOpen = false
  · have refuses' : chunk.text = "" ∨ b.isOpen = false := by
      rwa [utf8_eq_nil_iff, rep.isOpen] at refuses
    rw [noted, if_pos refuses] at kept
    rw [Broker.SseSubscriber.send, if_pos refuses', kept]
    exact ⟨same_open.trans rep.isOpen, rep.accepted⟩
  · have refuses' : ¬ (chunk.text = "" ∨ b.isOpen = false) := by
      rwa [utf8_eq_nil_iff, rep.isOpen] at refuses
    rw [noted, if_neg refuses] at kept
    rw [Broker.SseSubscriber.send, if_neg refuses', kept]
    refine ⟨same_open.trans rep.isOpen, ?_⟩
    show n.accepted ++ [utf8 chunk.text] = _
    rw [rep.accepted, List.map_append]
    rfl

theorem Represents.other (rep : Represents b s n) (no_send : ∀ data, pc ≠ .send data)
    (stepped : noting.step i (s, n) pc r = some ((s', n'), pc')) :
    Represents (if pc = .close ∨ pc = .completed true then b.close else b) s' n' := by
  cases moves_of_step stepped with
  | refused data => exact absurd rfl (no_send data)
  | joined data _ _ => exact absurd rfl (no_send _)
  | started data _ _ => exact absurd rfl (no_send _)
  | closed => exact ⟨rfl, rep.accepted⟩
  | failed now => exact ⟨rfl, rep.accepted⟩
  | idled _ => exact ⟨rep.isOpen, rep.accepted⟩
  | took => exact ⟨rep.isOpen, rep.accepted⟩
  | handed chunk => exact ⟨rep.isOpen, rep.accepted⟩
  | completed chunk ec => exact ⟨rep.isOpen, rep.accepted⟩
  | continued now => exact ⟨rep.isOpen, rep.accepted⟩
  | drained now _ => exact ⟨rep.isOpen, rep.accepted⟩

end Refinement

theorem writes_in_order_pair : ∃ c : Config (SseSubscriber × Note) Pc,
    c.shared.2.handed = [[1], [2]] ∧ c.procs.countP isOutstanding ≤ 1 ∧
      c.shared.2.handed.flatten <+: c.shared.2.accepted.flatten := by
  obtain ⟨c, reach, test⟩ := reach_of_run_test (M := noting) (G := anyLabel) (c := fresh 0)
    [.spawn (.send (some [1])), .act 0 {}, .act 0 {}, .act 0 {}, .spawn (.send (some [2])), .act 1 {},
      .act 0 {}, .act 0 {}, .act 0 {}, .act 0 {}]
    (fun c => decide (c.shared.2.handed = [[1], [2]])) (g := fun _ _ => true) (fun _ _ _ => trivial)
    (by decide +kernel)
  obtain ⟨one, in_order, -⟩ := writes_in_order 0 c reach
  exact ⟨c, of_decide_eq_true test, one, in_order⟩

end Scand.Sse.WriteBuffer
