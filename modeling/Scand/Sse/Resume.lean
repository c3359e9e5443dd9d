/- path: Scand/Sse/Resume
   layer: results
   digest: A client that reconnects with the id of the last event that it received loses no event, as long
   as its first connection is sent each event after the smaller ones. -/

import Scand.Sse.StreamOrder

set_option autoImplicit false
set_option relaxedAutoImplicit false

namespace Scand.Sse.Resume

open Scand.Foundation.Interleaving
open Scand.Sse.Broker
open Scand.Sse.Streams
open Scand.Sse.StreamOrder (steps)

/-- What a client has received completely of a stream when it got this many bytes of it. -/
def received : Nat → List Chunk → List Chunk
  | _, [] => []
  | bytes, chunk :: rest =>
      if chunk.text.utf8ByteSize ≤ bytes then
        chunk :: received (bytes - chunk.text.utf8ByteSize) rest
      else []

def receivedIds (bytes : Nat) (s : Shared) (t : Nat) : List Nat :=
  (received bytes (s.subscriber t).stream).filterMap Chunk.id

def NotClosing (c : Config Shared Pc) : Label Pc Reply → Prop
  | .spawn _ => True
  | .act j _ => c.procs[j]? ≠ some .closeAll

/-- Subscriber `t` has the events from `a` on, smaller than `n`, that a place would still broadcast. -/
def Preceded (s : Shared) (t a n : Nat) (pc : Pc) : Prop :=
  ∀ m ∈ broadcasting s t pc, a ≤ m → m < n → m ∈ sentIds s t

/-- An event is put on the stream of subscriber `t` while no broadcast is still going to send it an
event of a smaller id from `a` on that it does not have. -/
def AfterSmaller (t a : Nat) (c : Config Shared Pc) : Label Pc Reply → Prop
  | .spawn _ => True
  | .act j _ => ∀ pc ∈ c.procs[j]?, ∀ n ∈ appended c.shared t j pc,
      ∀ k < c.procs.length, k ≠ j → ∀ other ∈ c.procs[k]?, Preceded c.shared t a n other

/-- Two connections of one client: `c` and `d` stand before and after the registration of the first,
`e` and `e'` before and after that of the second, and `f` where nothing is on its way any more. The
decisions of the first connection satisfy `G`. -/
structure Reconnected (G : Config Shared Pc → Label Pc Reply → Prop) (i j k bytes : Nat)
    (c d e e' f : Config Shared Pc) : Prop where
  before : Reach broker anyLabel ⟨{}, []⟩ c
  first : ∃ lastEventId, c.procs[i]? = some (.add lastEventId)
  registered : ∃ r, broker.next c (.act i r) = some d
  connected : Reach broker G d e
  last : (receivedIds bytes e.shared i).getLast? = some k
  second : e.procs[j]? = some (.add k)
  reregistered : ∃ r, broker.next e (.act j r) = some e'
  resumed : Reach broker NotClosing e' f
  few : f.shared.nextId ≤ c.shared.nextId + historyMax
  isOpen : (f.shared.subscriber j).isOpen = true
  settled : ∀ p < f.procs.length, ∀ pc ∈ f.procs[p]?, onItsWay f.shared j p pc = []

/-- Nothing closes, and each event from `a` on is put on the stream of `t` after the smaller ones. -/
def Unbroken (t a : Nat) (c : Config Shared Pc) (l : Label Pc Reply) : Prop :=
  NotClosing c l ∧ AfterSmaller t a c l

/-- While subscriber `t` is open, the events from `a` on are on its stream or still being broadcast to
it, and those between `b` and `a` that are still held may also be replayed to it. -/
structure Tracked (t b a : Nat) (c : Config Shared Pc) : Prop where
  numbered : Numbered c
  added : ∃ pc, c.procs[t]? = some pc ∧ ∀ k, pc ≠ .add k
  listed : (c.shared.subscriber t).isOpen = true → t ∈ c.shared.subs
  sending : (c.shared.subscriber t).isOpen = true → ∀ m, a ≤ m → m < c.shared.nextId →
    m ∈ sentIds c.shared t ∨ ∃ pc ∈ c.procs, m ∈ broadcasting c.shared t pc
  missing : (c.shared.subscriber t).isOpen = true → ∀ m, b < m → m < a →
    c.shared.nextId ≤ m + historyMax →
      m ∈ sentIds c.shared t ∨ (∃ pc ∈ c.procs, m ∈ broadcasting c.shared t pc) ∨
        ∃ pc, c.procs[t]? = some pc ∧ m ∈ replaying c.shared t t pc

section Steps

variable {t b a i j m : Nat} {s s' : Shared} {pc pc' : Pc} {r : Reply} {c d : Config Shared Pc}
  {l : Label Pc Reply}

theorem mem_missed {k : Int} :
    m ∈ (missed s k).map HistoryEntry.id ↔ m ∈ s.history.map HistoryEntry.id ∧ k < m := by
  simp only [missed, List.mem_map, List.mem_filter, decide_eq_true_eq]
  constructor
  · rintro ⟨e, ⟨held, newer⟩, rfl⟩
    exact ⟨⟨e, held, rfl⟩, newer⟩
  · rintro ⟨⟨e, held, rfl⟩, newer⟩
    exact ⟨e, ⟨held, newer⟩, rfl⟩

structure Follows (t i : Nat) (s : Shared) (pc : Pc) (s' : Shared) (pc' : Pc) : Prop where
  wasOpen : (s.subscriber t).isOpen = true
  listed : t ∈ s.subs → t ∈ s'.subs
  sending : ∀ m ∈ broadcasting s t pc, m ∈ appended s t i pc ∨ m ∈ broadcasting s' t pc'
  replaying : i = t → ∀ m ∈ replaying s t t pc, m ∈ appended s t i pc ∨ m ∈ replaying s' t t pc'

theorem accepted_of_open {e : HistoryEntry} (is_open : (s.subscriber t).isOpen = true)
    (payload : e.payload ≠ "") : accepted s t t e.chunk = [e.id] := by
  simp [accepted, is_open, HistoryEntry.chunk, payload]

theorem listed_step (numbered : Numbered c) (at_i : c.procs[i]? = some pc)
    (stepped : broker.step i c.shared pc r = some (s', pc')) (not_closing : pc ≠ .closeAll)
    (is_open : (c.shared.subscriber t).isOpen = true) (listed : t ∈ c.shared.subs) :
    t ∈ s'.subs := by
  cases pc
  case closeAll => exact absurd rfl not_closing
  case add k =>
    cases stepped
    exact mem_insertSub _ listed
  case remove =>
    cases stepped
    have apart : t ≠ i := by
      rintro rfl
      rw [numbered.removed t at_i] at is_open
      cases is_open
    exact (List.mem_erase_of_ne apart).mpr listed
  case keepAlive =>
    simp only [broker, broadcastStep, connectionStep, Option.none_or] at stepped
    split at stepped <;> cases stepped <;> exact listed
  case sendResumed =>
    simp only [broker, broadcastStep, connectionStep, Option.none_or] at stepped
    cases stepped
    split <;> exact listed
  case sendAll e rest => cases rest <;> cases stepped <;> exact listed
  case sendMissed rest => cases rest <;> cases stepped <;> exact listed
  case closeEach rest => cases rest <;> cases stepped <;> exact listed
  all_goals
    cases stepped
    try exact listed

theorem broker_follows (numbered : Numbered c) (at_i : c.procs[i]? = some pc)
    (stepped : broker.step i c.shared pc r = some (s', pc'))
    (not_new : ∀ eventName data, pc ≠ .assignId eventName data)
    (not_added : ∀ k, pc = .add k → i ≠ t) (not_closing : pc ≠ .closeAll)
    (still : (s'.subscriber t).isOpen = true) : Follows t i c.shared pc s' pc' := by
  have was_open : (c.shared.subscriber t).isOpen = true := by
    by_contra closed
    rw [(broker_carries stepped).closed t (Bool.eq_false_of_not_eq_true closed) not_added] at still
    cases still
  have carried := numbered.entries pc (List.mem_of_getElem? at_i)
  refine ⟨was_open, listed_step numbered at_i stepped not_closing was_open, ?_, ?_⟩
  · intro m sending
    cases pc
    case takeSnapshot e =>
      cases stepped
      exact Or.inr sending
    case sendAll e rest =>
      cases rest with
      | nil => simp [broadcasting] at sending
      | cons i' rest =>
          cases stepped
          simp only [broadcasting, List.mem_cons] at sending ⊢
          by_cases mine : i' = t
          · subst mine
            have number : m = e.id := by simpa using sending
            have payload := (carried e List.mem_cons_self).2.2
            exact Or.inl (by simp [appended, accepted_of_open was_open payload, number])
          · exact Or.inr (by simpa [Ne.symm mine] using sending)
    all_goals cases sending
  · rintro rfl m replayed
    cases pc
    case replay k =>
      cases stepped
      exact Or.inr replayed
    case sendMissed rest =>
      cases rest with
      | nil => simp [replaying] at replayed
      | cons e rest =>
          cases stepped
          simp only [replaying, if_true, List.map_cons, List.mem_cons] at replayed ⊢
          have payload := (carried e List.mem_cons_self).2.2
          exact replayed.imp (fun same => by
            simp [appended, accepted_of_open was_open payload, same]) id
    all_goals cases replayed

theorem not_add_after (stepped : broker.step i s pc r = some (s', pc')) (k : Int) :
    pc' ≠ .add k := by
  cases pc
  case add k' =>
    cases stepped
    split <;> simp
  case keepAlive =>
    simp only [broker, broadcastStep, connectionStep, Option.none_or] at stepped
    split at stepped <;> cases stepped <;> simp
  case sendAll e rest => cases rest <;> cases stepped <;> simp
  case sendMissed rest => cases rest <;> cases stepped <;> simp
  case closeEach rest => cases rest <;> cases stepped <;> simp
  all_goals cases stepped <;> simp

theorem broadcasting_kept (listed : t ∈ s'.subs) (mem : m ∈ broadcasting s t pc) :
    m ∈ broadcasting s' t pc := by
  cases pc
  case takeSnapshot e =>
    simp only [broadcasting, listed, if_true] at mem ⊢
    split at mem
    · exact mem
    · cases mem
  all_goals exact mem

theorem replaying_assign (held : Held s) {eventName data : String}
    (window : s.nextId + 1 ≤ m + historyMax) (mem : m ∈ replaying s t t pc) :
    m ∈ replaying (broadcastWithId s eventName data 0).1 t t pc := by
  cases pc
  case replay k =>
    simp only [replaying, if_true, mem_missed] at mem ⊢
    have number := held.mem_ids.mp mem.1
    exact ⟨(held.assign eventName data).mem_ids.mpr
      ⟨number.1, Nat.lt_succ_of_lt number.2.1, window⟩, mem.2⟩
  all_goals exact mem

private theorem Tracked.assign {eventName data : String} {e : HistoryEntry}
    (tracked : Tracked t b a c)
    (at_i : c.procs[i]? = some (.assignId eventName data))
    (numbered : Numbered ⟨(broadcastWithId c.shared eventName data 0).1,
      c.procs.set i (.takeSnapshot e)⟩) (named : e.id = c.shared.nextId) :
    Tracked t b a ⟨(broadcastWithId c.shared eventName data 0).1,
      c.procs.set i (.takeSnapshot e)⟩ := by
  obtain ⟨own, at_t, past⟩ := tracked.added
  have apart : i = t → own = .assignId eventName data := by
    rintro rfl
    exact Option.some.inj (at_t.symm.trans at_i)
  have bound := (List.getElem?_eq_some_iff.mp at_i).1
  have others : ∀ m, (∃ pc ∈ c.procs, m ∈ broadcasting c.shared t pc) →
      (c.shared.subscriber t).isOpen = true →
      ∃ pc ∈ c.procs.set i (.takeSnapshot e),
        m ∈ broadcasting (broadcastWithId c.shared eventName data 0).1 t pc := by
    rintro m ⟨pc, mem, sending⟩ is_open
    obtain ⟨j, at_j⟩ := List.mem_iff_getElem?.mp mem
    have other : i ≠ j := by
      rintro rfl
      rw [← Option.some.inj (at_i.symm.trans at_j)] at sending
      cases sending
    refine ⟨pc, List.mem_iff_getElem?.mpr ⟨j, by rw [List.getElem?_set_ne other, at_j]⟩, ?_⟩
    exact broadcasting_kept (tracked.listed is_open) sending
  refine ⟨numbered, ?_, tracked.listed, fun is_open m low high => ?_,
    fun is_open m low high window => ?_⟩
  · by_cases same : i = t
    · subst same
      exact ⟨.takeSnapshot e, getElem?_set_here at_i, by simp⟩
    · exact ⟨own, by simp [same, at_t], past⟩
  · rcases Nat.lt_succ_iff_lt_or_eq.mp high with older | rfl
    · exact (tracked.sending is_open m low older).imp_right fun found => others m found is_open
    · refine Or.inr ⟨.takeSnapshot e, List.mem_set bound _, ?_⟩
      have listed : t ∈ (broadcastWithId c.shared eventName data 0).1.subs := tracked.listed is_open
      simp [broadcasting, listed, named]
  · have before : c.shared.nextId ≤ m + historyMax := Nat.le_of_succ_le window
    rcases tracked.missing is_open m low high before with sent | found | ⟨pc, at_t', replayed⟩
    · exact Or.inl sent
    · exact Or.inr (Or.inl (others m found is_open))
    · have other : i ≠ t := by
        rintro rfl
        rw [← Option.some.inj (at_i.symm.trans at_t')] at replayed
        cases replayed
      refine Or.inr (Or.inr ⟨pc, by rw [List.getElem?_set_ne other, at_t'], ?_⟩)
      exact replaying_assign tracked.numbered.held window replayed

private theorem Tracked.follow (tracked : Tracked t b a c) (at_i : c.procs[i]? = some pc)
    (stepped : broker.step i c.shared pc r = some (s', pc'))
    (not_new : ∀ eventName data, pc ≠ .assignId eventName data) (not_closing : pc ≠ .closeAll)
    (numbered : Numbered ⟨s', c.procs.set i pc'⟩) : Tracked t b a ⟨s', c.procs.set i pc'⟩ := by
  obtain ⟨own, at_t, past⟩ := tracked.added
  have bound := (List.getElem?_eq_some_iff.mp at_i).1
  have not_added : ∀ k, pc = .add k → i ≠ t := by
    rintro k rfl rfl
    exact past k (Option.some.inj (at_t.symm.trans at_i))
  have moves : Moves t i c.shared pc s' pc' := broker_moves stepped not_new not_added
    (tracked.numbered.rest pc (List.mem_of_getElem? at_i))
  have kept : ∀ m, m ∈ sentIds c.shared t → m ∈ sentIds s' t := by
    intro m sent
    rw [moves.sent]
    exact List.mem_append_left _ sent
  have now : ∀ m, m ∈ appended c.shared t i pc → m ∈ sentIds s' t := by
    intro m sent
    rw [moves.sent]
    exact List.mem_append_right _ sent
  have spread : (s'.subscriber t).isOpen = true →
      ∀ m, (∃ other ∈ c.procs, m ∈ broadcasting c.shared t other) →
      m ∈ sentIds s' t ∨ ∃ other ∈ c.procs.set i pc', m ∈ broadcasting s' t other := by
    rintro is_open m ⟨other, mem, sending⟩
    have follows := broker_follows tracked.numbered at_i stepped not_new not_added not_closing is_open
    obtain ⟨j, at_j⟩ := List.mem_iff_getElem?.mp mem
    by_cases same : i = j
    · subst same
      obtain rfl := Option.some.inj (at_i.symm.trans at_j)
      rcases follows.sending m sending with sent | still
      · exact Or.inl (now m sent)
      · exact Or.inr ⟨pc', List.mem_set bound _, still⟩
    · refine Or.inr ⟨other, List.mem_iff_getElem?.mpr ⟨j, by rw [List.getElem?_set_ne same, at_j]⟩,
        ?_⟩
      exact broadcasting_kept (follows.listed (tracked.listed follows.wasOpen)) sending
  have was_open : (s'.subscriber t).isOpen = true → (c.shared.subscriber t).isOpen = true :=
    fun is_open => (broker_follows tracked.numbered at_i stepped not_new not_added not_closing
      is_open).wasOpen
  refine ⟨numbered, ?_, fun is_open => ?_, fun is_open m low high => ?_,
    fun is_open m low high window => ?_⟩
  · by_cases same : i = t
    · subst same
      exact ⟨pc', getElem?_set_here at_i, not_add_after stepped⟩
    · exact ⟨own, by simp [same, at_t], past⟩
  · exact (broker_follows tracked.numbered at_i stepped not_new not_added not_closing
      is_open).listed (tracked.listed (was_open is_open))
  · rw [moves.nextId] at high
    rcases tracked.sending (was_open is_open) m low high with sent | found
    · exact Or.inl (kept m sent)
    · exact spread is_open m found
  · rw [moves.nextId] at window
    rcases tracked.missing (was_open is_open) m low high window with
      sent | found | ⟨other, at_t', replayed⟩
    · exact Or.inl (kept m sent)
    · exact (spread is_open m found).imp_right Or.inl
    · by_cases same : i = t
      · subst same
        obtain rfl := Option.some.inj (at_i.symm.trans at_t')
        have follows := broker_follows tracked.numbered at_i stepped not_new not_added not_closing
          is_open
        rcases follows.replaying rfl m replayed with sent | still
        · exact Or.inl (now m sent)
        · exact Or.inr (Or.inr ⟨pc', getElem?_set_here at_i, still⟩)
      · refine Or.inr (Or.inr ⟨other, by simp [same, at_t'], ?_⟩)
        cases other
        case replay k =>
          simp only [replaying, missed, moves.history] at replayed ⊢
          exact replayed
        all_goals exact replayed

/-- Every decision but a shutdown keeps track of the events for a subscriber. -/
theorem Tracked.next (tracked : Tracked t b a c) (guard : NotClosing c l)
    (moved : broker.next c l = some d) : Tracked t b a d := by
  have numbered := tracked.numbered.next moved
  rcases next_cases moved with ⟨p, rfl, entry, rfl⟩ | ⟨i, r, p, s', q, rfl, at_i, stepped, rfl⟩
  · obtain ⟨own, at_t, past⟩ := tracked.added
    have grown : ∀ m, (∃ pc ∈ c.procs, m ∈ broadcasting c.shared t pc) →
        ∃ pc ∈ c.procs ++ [p], m ∈ broadcasting c.shared t pc := by
      rintro m ⟨pc, mem, sending⟩
      exact ⟨pc, List.mem_append_left _ mem, sending⟩
    refine ⟨numbered, ⟨own, getElem?_snoc_kept at_t, past⟩, tracked.listed,
      fun is_open m low high => (tracked.sending is_open m low high).imp_right (grown m),
      fun is_open m low high window => ?_⟩
    refine (tracked.missing is_open m low high window).imp_right fun found => ?_
    rcases found with sending | ⟨pc, at_t', replayed⟩
    · exact Or.inl (grown m sending)
    · exact Or.inr ⟨pc, getElem?_snoc_kept at_t', replayed⟩
  · by_cases new : ∃ eventName data, p = .assignId eventName data
    · obtain ⟨eventName, data, rfl⟩ := new
      cases stepped
      exact tracked.assign at_i numbered rfl
    · refine tracked.follow at_i stepped (fun eventName data same => new ⟨eventName, data, same⟩)
        (fun closing => guard ?_) numbered
      rw [at_i, closing]

theorem tracked_added {k : Int} (numbered : Numbered c) (at_t : c.procs[t]? = some (.add k))
    (newer : (b : Int) = k ∧ 0 < b ∨ b = c.shared.nextId)
    (moved : broker.next c (.act t r) = some d) : Tracked t b c.shared.nextId d := by
  have fresh := numbered.next moved
  obtain ⟨p, s', q, at_t', stepped, rfl⟩ := next_act moved
  obtain rfl := Option.some.inj (at_t.symm.trans at_t')
  have q_at : (c.procs.set t q)[t]? = some q := getElem?_set_here at_t
  cases stepped
  refine ⟨fresh, ⟨_, q_at, ?_⟩, fun _ => ?_, fun _ m low high => ?_, fun _ m low high window => ?_⟩
  · split <;> simp
  · simp only [insertSub]
    split
    · assumption
    · exact List.mem_append_right _ List.mem_cons_self
  · exact absurd high (Nat.not_lt.mpr low)
  · rcases newer with ⟨rfl, positive⟩ | rfl
    · refine Or.inr (Or.inr ⟨_, q_at, ?_⟩)
      have replays : (0 : Int) < b := Int.ofNat_lt.mpr positive
      simp only [gt_iff_lt, replays, if_true, replaying, mem_missed]
      refine ⟨numbered.held.mem_ids.mpr ⟨Nat.lt_of_le_of_lt (Nat.zero_le _) low, high, window⟩, ?_⟩
      exact Int.ofNat_lt.mpr low
    · exact absurd high (Nat.not_lt.mpr low.le)

/-- Before each id of the list, all the smaller ones from `a` on. -/
def Gapless (a : Nat) (ids : List Nat) : Prop :=
  ∀ before n after, ids = before ++ n :: after → ∀ m, a ≤ m → m < n → m ∈ before

theorem Gapless.snoc {ids : List Nat} {n : Nat} (gapless : Gapless a ids)
    (smaller : ∀ m, a ≤ m → m < n → m ∈ ids) : Gapless a (ids ++ [n]) := by
  intro before n' after split m low high
  rcases List.eq_nil_or_concat after with rfl | ⟨front, final, rfl⟩
  · obtain ⟨rfl, equal⟩ := List.append_inj' split rfl
    obtain rfl : n = n' := by simpa using equal
    exact smaller m low high
  · have longer : ids ++ [n] = (before ++ n' :: front) ++ [final] := by
      rw [split, List.concat_eq_append, List.append_assoc, List.cons_append]
    obtain ⟨front_eq, -⟩ := List.append_inj' longer rfl
    exact gapless before n' front front_eq m low high

theorem appended_cases (s : Shared) (t i : Nat) (pc : Pc) : appended s t i pc = [] ∨
    ((s.subscriber t).isOpen = true ∧ ∃ n, appended s t i pc = [n] ∧
      ∀ m ∈ broadcasting s t pc, m = n) := by
  have one : ∀ (e : HistoryEntry) (j : Nat), accepted s t j e.chunk = [] ∨
      ((s.subscriber t).isOpen = true ∧ accepted s t j e.chunk = [e.id]) := by
    intro e j
    unfold accepted
    split
    · rename_i taken
      exact Or.inr ⟨taken.2.2, rfl⟩
    · exact Or.inl rfl
  cases pc
  case sendAll e rest =>
    cases rest with
    | nil => exact Or.inl rfl
    | cons j rest =>
        refine (one e j).imp_right fun taken => ⟨taken.1, e.id, taken.2, fun m mem => ?_⟩
        simp only [broadcasting] at mem
        split at mem
        · exact List.mem_singleton.mp mem
        · cases mem
  case sendMissed rest =>
    cases rest with
    | nil => exact Or.inl rfl
    | cons e rest =>
        refine (one e i).imp_right fun taken => ⟨taken.1, e.id, taken.2, fun m mem => ?_⟩
        cases mem
  all_goals exact Or.inl rfl

theorem gapless_next (tracked : Tracked t a a c) (gapless : Gapless a (sentIds c.shared t))
    (guard : AfterSmaller t a c l) (moved : broker.next c l = some d) :
    Gapless a (sentIds d.shared t) := by
  rcases next_cases moved with ⟨p, rfl, -, rfl⟩ | ⟨i, r, p, s', q, rfl, at_i, stepped, rfl⟩
  · exact gapless
  · obtain ⟨own, at_t, past⟩ := tracked.added
    have mem := List.mem_of_getElem? at_i
    by_cases new : ∃ eventName data, p = .assignId eventName data
    · obtain ⟨eventName, data, rfl⟩ := new
      cases stepped
      exact gapless
    · have moves : Moves t i c.shared p s' q := broker_moves stepped
        (fun eventName data same => new ⟨eventName, data, same⟩)
        (by
          rintro k rfl rfl
          exact past k (Option.some.inj (at_t.symm.trans at_i)))
        (tracked.numbered.rest p mem)
      rw [moves.sent]
      rcases appended_cases c.shared t i p with none | ⟨is_open, n, sent, own_id⟩
      · rw [none, List.append_nil]
        exact gapless
      · have now : n ∈ appended c.shared t i p := by simp [sent]
        obtain ⟨e, carried, rfl⟩ := mem_appended now
        rw [sent]
        refine gapless.snoc fun m low high => ?_
        have number := (tracked.numbered.entries p mem e carried).2.1
        rcases tracked.sending is_open m low (Nat.lt_trans high number) with
          old | ⟨other, listed, sending⟩
        · exact old
        · obtain ⟨j, at_j⟩ := List.mem_iff_getElem?.mp listed
          by_cases same : j = i
          · subst same
            obtain rfl := Option.some.inj (at_i.symm.trans at_j)
            exact absurd (own_id m sending) (Nat.ne_of_lt high)
          · have bound := (List.getElem?_eq_some_iff.mp at_j).1
            exact guard p at_i e.id now j bound same other at_j m sending low high

end Steps

theorem received_prefix (bytes : Nat) (stream : List Chunk) : received bytes stream <+: stream := by
  induction stream generalizing bytes with
  | nil => exact List.nil_prefix
  | cons chunk rest ih =>
      rw [received]
      split
      · exact List.cons_prefix_cons.mpr ⟨rfl, ih _⟩
      · exact List.nil_prefix

/-- Nothing is lost across a reconnect: every event whose id was assigned after the first registration
was received on the first connection or is queued on the second one. -/
theorem reconnect_complete (i j k bytes : Nat) (c d e e' f : Config Shared Pc)
    (run : Reconnected (Unbroken i c.shared.nextId) i j k bytes c d e e' f) (m : Nat)
    (low : c.shared.nextId ≤ m) (high : m < f.shared.nextId) :
    m ∈ receivedIds bytes e.shared i ∨ m ∈ sentIds f.shared j := by
  obtain ⟨lastEventId, at_i⟩ := run.first
  obtain ⟨r, registered⟩ := run.registered
  obtain ⟨r', reregistered⟩ := run.reregistered
  have numbered : Numbered c :=
    run.before.invariant numbered_initial fun _ _ _ numbered _ moved => numbered.next moved
  have empty : sentIds d.shared i = [] := by
    obtain ⟨p, s, q, at_i', stepped, rfl⟩ := next_act registered
    obtain rfl := Option.some.inj (at_i.symm.trans at_i')
    cases stepped
    simp [sentIds]
  -- the first connection, up to the moment at which the second one is registered
  have first : Tracked i c.shared.nextId c.shared.nextId e ∧
      Gapless c.shared.nextId (sentIds e.shared i) := by
    refine run.connected.invariant
      (I := fun c' => Tracked i c.shared.nextId c.shared.nextId c' ∧
        Gapless c.shared.nextId (sentIds c'.shared i))
      ⟨tracked_added numbered at_i (Or.inr rfl) registered, ?_⟩
      fun _ _ _ before guard moved => ⟨before.1.next guard.1 moved,
        gapless_next before.1 before.2 guard.2 moved⟩
    rw [empty]
    intro before n after split
    simp at split
  -- what it received ends with the event `k`
  obtain ⟨early, ids⟩ : ∃ early, receivedIds bytes e.shared i = early ++ [k] := by
    obtain ⟨early, same⟩ := List.getLast?_eq_some_iff.mp run.last
    exact ⟨early, same⟩
  obtain ⟨late, whole⟩ : ∃ late, sentIds e.shared i = receivedIds bytes e.shared i ++ late := by
    obtain ⟨later, same⟩ := received_prefix bytes (e.shared.subscriber i).stream
    exact ⟨later.filterMap Chunk.id, by rw [sentIds, ← same, List.filterMap_append]; rfl⟩
  have split : sentIds e.shared i = early ++ k :: late := by
    rw [whole, ids, List.append_assoc, List.singleton_append]
  rcases Nat.lt_trichotomy m k with smaller | rfl | greater
  · left
    rw [ids]
    exact List.mem_append_left _ (first.2 early k late split m low smaller)
  · left
    rw [ids]
    exact List.mem_append_right _ List.mem_cons_self
  · right
    have positive : 0 < k := by
      refine (first.1.numbered.sent i k ?_).1
      rw [split]
      exact List.mem_append_right _ List.mem_cons_self
    have second : Tracked j k e.shared.nextId f := run.resumed.invariant
      (tracked_added first.1.numbered run.second (Or.inl ⟨rfl, positive⟩) reregistered)
      fun _ _ _ tracked guard moved => tracked.next guard moved
    have none_left : ∀ p pc, f.procs[p]? = some pc →
        m ∉ broadcasting f.shared j pc ∧ m ∉ replaying f.shared j p pc := by
      intro p pc at_p
      have settled := run.settled p (List.getElem?_eq_some_iff.mp at_p).1 pc at_p
      rw [onItsWay, List.append_eq_nil_iff] at settled
      simp [settled.1, settled.2]
    have no_broadcast : ¬ ∃ pc ∈ f.procs, m ∈ broadcasting f.shared j pc := by
      rintro ⟨pc, mem, sending⟩
      obtain ⟨p, at_p⟩ := List.mem_iff_getElem?.mp mem
      exact (none_left p pc at_p).1 sending
    rcases Nat.lt_or_ge m e.shared.nextId with older | newer
    · have window : f.shared.nextId ≤ m + historyMax := by
        have few := run.few
        omega
      rcases second.missing run.isOpen m greater older window with
        sent | sending | ⟨pc, at_j, replayed⟩
      · exact sent
      · exact absurd sending no_broadcast
      · exact absurd replayed (none_left j pc at_j).2
    · exact (second.sending run.isOpen m newer high).resolve_right no_broadcast

section Sample

instance : ∀ c l, Decidable (NotClosing c l)
  | _, .spawn _ => .isTrue trivial
  | c, .act j _ => inferInstanceAs (Decidable (c.procs[j]? ≠ some .closeAll))

instance (s : Shared) (t a n : Nat) (pc : Pc) : Decidable (Preceded s t a n pc) :=
  inferInstanceAs (Decidable (∀ m ∈ broadcasting s t pc, a ≤ m → m < n → m ∈ sentIds s t))

instance (t a : Nat) : ∀ c l, Decidable (AfterSmaller t a c l)
  | _, .spawn _ => .isTrue trivial
  | c, .act j _ => inferInstanceAs (Decidable (∀ pc ∈ c.procs[j]?,
      ∀ n ∈ appended c.shared t j pc, ∀ k < c.procs.length, k ≠ j → ∀ other ∈ c.procs[k]?,
        Preceded c.shared t a n other))

instance (t a : Nat) (c : Config Shared Pc) (l : Label Pc Reply) : Decidable (Unbroken t a c l) :=
  inferInstanceAs (Decidable (NotClosing c l ∧ AfterSmaller t a c l))

def played (g : Config Shared Pc → Label Pc Reply → Bool) (c : Config Shared Pc)
    (ls : List (Label Pc Reply)) : Config Shared Pc := (broker.run g c ls).getD c

def moved (c : Config Shared Pc) (l : Label Pc Reply) : Config Shared Pc := (broker.next c l).getD c

theorem played_reach {G : Config Shared Pc → Label Pc Reply → Prop}
    {g : Config Shared Pc → Label Pc Reply → Bool} (passes : ∀ c l, g c l = true → G c l)
    {c : Config Shared Pc} {ls : List (Label Pc Reply)} (whole : (broker.run g c ls).isSome = true) :
    Reach broker G c (played g c ls) := by
  obtain ⟨d, run⟩ := Option.isSome_iff_exists.mp whole
  have last : played g c ls = d := by simp [played, run]
  exact last ▸ reach_of_run passes run

theorem moved_next {c : Config Shared Pc} {l : Label Pc Reply}
    (possible : (broker.next c l).isSome = true) : broker.next c l = some (moved c l) := by
  obtain ⟨d, next⟩ := Option.isSome_iff_exists.mp possible
  simp [moved, next]

def arriving : Config Shared Pc := ⟨{}, [.add 0]⟩

theorem arriving_reach : Reach broker anyLabel ⟨{}, []⟩ arriving :=
  .step .refl trivial (l := .spawn (.add 0)) rfl

def arrived : Config Shared Pc := moved arriving (.act 0 {})

/-- A broadcast is numbered and stopped short of its send, and the next one overtakes it; then the
connection is lost. -/
def overtaken : List (Label Pc Reply) :=
  steps 0 2 ++ .spawn (.assignId "progress" "1") :: .spawn (.assignId "progress" "2") ::
    steps 1 2 ++ steps 2 4 ++ .spawn (.failWrite 0) :: steps 3 1 ++ [.spawn (.add 2)]

def lost : Config Shared Pc := played (fun c l => decide (NotClosing c l)) arrived overtaken

/-- The client has the event 2 of two broadcasts that cross; it resumes there and never gets the
event 1. -/
theorem event_skipped :
    ∃ f, Reconnected NotClosing 0 4 2 1000 arriving arrived lost (moved lost (.act 4 {})) f ∧
      1 < f.shared.nextId ∧ 1 ∉ receivedIds 1000 lost.shared 0 ∧ 1 ∉ sentIds f.shared 4 := by
  refine ⟨played (fun c l => decide (NotClosing c l)) (moved lost (.act 4 {}))
    (steps 4 4 ++ steps 1 2), ?_, by decide +kernel, by decide +kernel, by decide +kernel⟩
  exact {
    before := arriving_reach
    first := ⟨0, rfl⟩
    registered := ⟨{}, rfl⟩
    connected := played_reach (fun _ _ => of_decide_eq_true) (by decide +kernel)
    last := by decide +kernel
    second := by decide +kernel
    reregistered := ⟨{}, moved_next (by decide +kernel)⟩
    resumed := played_reach (fun _ _ => of_decide_eq_true) (by decide +kernel)
    few := by decide +kernel
    isOpen := by decide +kernel
    settled := by decide +kernel }

def missedOne : List (Label Pc Reply) :=
  steps 0 2 ++ .spawn (.assignId "progress" "1") :: steps 1 4 ++
    .spawn (.assignId "progress" "2") :: steps 2 4 ++ .spawn (.failWrite 0) :: steps 3 1 ++
    .spawn (.assignId "progress" "3") :: steps 4 4 ++ [.spawn (.add 2)]

def dropped : Config Shared Pc := played (fun c l => decide (Unbroken 0 1 c l)) arrived missedOne

theorem reconnect_complete_replayed :
    ∃ f : Config Shared Pc, receivedIds 1000 dropped.shared 0 = [1, 2] ∧ sentIds f.shared 5 = [3] ∧
      f.shared.nextId = 4 ∧ ∀ m, arriving.shared.nextId ≤ m → m < f.shared.nextId →
        m ∈ receivedIds 1000 dropped.shared 0 ∨ m ∈ sentIds f.shared 5 := by
  refine ⟨played (fun c l => decide (NotClosing c l)) (moved dropped (.act 5 {})) (steps 5 5),
    by decide +kernel, by decide +kernel, by decide +kernel, ?_⟩
  refine reconnect_complete 0 5 2 1000 arriving arrived dropped (moved dropped (.act 5 {})) _ ?_
  exact {
    before := arriving_reach
    first := ⟨0, rfl⟩
    registered := ⟨{}, rfl⟩
    connected := played_reach (fun _ _ => of_decide_eq_true) (by decide +kernel)
    last := by decide +kernel
    second := by decide +kernel
    reregistered := ⟨{}, moved_next (by decide +kernel)⟩
    resumed := played_reach (fun _ _ => of_decide_eq_true) (by decide +kernel)
    few := by decide +kernel
    isOpen := by decide +kernel
    settled := by decide +kernel }

end Sample

end Scand.Sse.Resume
