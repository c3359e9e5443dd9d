/- path: Scand/Foundation/EventStream
   layer: library
   digest: Event streams: the reader that a client runs over the bytes as they come in, and what it
   dispatches of blocks of lines, however many of their bytes have arrived. -/

import Mathlib.Data.List.Basic

set_option autoImplicit false
set_option relaxedAutoImplicit false

namespace Scand.Foundation.EventStream

abbrev Bytes := List UInt8

def lf : UInt8 := 10
def cr : UInt8 := 13
def colon : UInt8 := 58
def space : UInt8 := 32

def OneLine (bytes : Bytes) : Prop := ∀ b ∈ bytes, b ≠ lf ∧ b ≠ cr

structure Event where
  type : Bytes
  data : Bytes
  deriving DecidableEq

structure Client where
  type : Bytes := []
  data : Bytes := []
  idBuffer : Bytes := []
  lastEventId : Bytes := []
  deriving DecidableEq

def ascii (text : String) : Bytes := text.toList.map fun c => c.toNat.toUInt8

section Reader

/-- A field of a line: a value of `data` adds a line to the data, and an id with a NUL is ignored. -/
def Client.field (c : Client) (name value : Bytes) : Client :=
  if name = ascii "event" then { c with type := value }
  else if name = ascii "data" then { c with data := c.data ++ value ++ [lf] }
  else if name = ascii "id" then (if 0 ∈ value then c else { c with idBuffer := value })
  else c

def fieldValue : Bytes → Bytes
  | [] => []
  | b :: rest => if b = space then rest else b :: rest

/-- A blank line: the event is dispatched if it has data, and the buffers are emptied. -/
def Client.dispatch (c : Client) : Client × List Event :=
  let next : Client := { c with type := [], data := [], lastEventId := c.idBuffer }
  if c.data = [] then (next, [])
  else (next, [{ type := if c.type = [] then ascii "message" else c.type, data := c.data.dropLast }])

/-- A line without its end: blank, a comment, or a field. -/
def Client.line (c : Client) (line : Bytes) : Client × List Event :=
  match line with
  | [] => c.dispatch
  | b :: _ =>
      if b = colon then (c, [])
      else (c.field (line.takeWhile (· ≠ colon))
        (fieldValue ((line.dropWhile (· ≠ colon)).drop 1)), [])

structure Reader where
  client : Client := {}
  pending : Bytes := []
  afterCr : Bool := false
  deriving DecidableEq

def Reader.feed (r : Reader) (b : UInt8) : Reader × List Event :=
  if b = lf ∧ r.afterCr = true then ({ r with afterCr := false }, [])
  else if b = lf ∨ b = cr then
    let (client, events) := r.client.line r.pending
    ({ client := client, pending := [], afterCr := decide (b = cr) }, events)
  else ({ r with pending := r.pending ++ [b], afterCr := false }, [])

def Reader.read (r : Reader) : Bytes → Reader × List Event
  | [] => (r, [])
  | b :: rest =>
      let (next, events) := r.feed b
      let (last, more) := next.read rest
      (last, events ++ more)

end Reader

section Lines

variable {r : Reader} {c : Client}

theorem read_append (r : Reader) (left right : Bytes) :
    r.read (left ++ right) =
      (((r.read left).1.read right).1,
        (r.read left).2 ++ ((r.read left).1.read right).2) := by
  induction left generalizing r with
  | nil => rfl
  | cons b left ih => simp only [List.cons_append, Reader.read, ih, List.append_assoc]

theorem read_oneLine {line : Bytes} (one : OneLine line) (pending : Bytes) :
    (Reader.mk c pending false).read line = (Reader.mk c (pending ++ line) false, []) := by
  induction line generalizing pending with
  | nil => simp [Reader.read]
  | cons b line ih =>
      obtain ⟨not_lf, not_cr⟩ := one b List.mem_cons_self
      have rest : OneLine line := fun other mem => one other (List.mem_cons_of_mem _ mem)
      simp [Reader.read, Reader.feed, not_lf, not_cr, ih rest]

theorem read_line {line : Bytes} (one : OneLine line) :
    (Reader.mk c [] false).read (line ++ [lf]) =
      (Reader.mk (c.line line).1 [] false, (c.line line).2) := by
  rw [read_append, read_oneLine one]
  simp [Reader.read, Reader.feed, lf, cr]

theorem line_quiet {line : Bytes} (filled : line ≠ []) : (c.line line).2 = [] := by
  unfold Client.line
  split
  · exact absurd rfl filled
  · split <;> rfl

theorem line_keeps {line : Bytes} (filled : line ≠ []) :
    (c.line line).1.lastEventId = c.lastEventId := by
  unfold Client.line
  split
  · exact absurd rfl filled
  · split
    · rfl
    · unfold Client.field
      split
      · rfl
      · split
        · rfl
        · split
          · split <;> rfl
          · rfl

theorem line_field {name value : Bytes} (named : name ≠ []) (plain : colon ∉ name) :
    c.line (name ++ ([colon, space] ++ value)) = (c.field name value, []) := by
  have before : (name ++ ([colon, space] ++ value)).takeWhile (· ≠ colon) = name := by
    rw [List.takeWhile_append_of_pos]
    · simp
    · intro b mem
      exact decide_eq_true fun same => plain (same ▸ mem)
  have after : (name ++ ([colon, space] ++ value)).dropWhile (· ≠ colon) =
      [colon, space] ++ value := by
    rw [List.dropWhile_append_of_pos]
    · simp
    · intro b mem
      exact decide_eq_true fun same => plain (same ▸ mem)
  obtain ⟨b, rest, rfl⟩ := List.exists_cons_of_ne_nil named
  have not_comment : b ≠ colon := fun same => plain (same ▸ List.mem_cons_self)
  unfold Client.line
  simp only [List.cons_append] at before after ⊢
  rw [if_neg not_comment, before, after]
  rfl

theorem field_event (value : Bytes) : c.field (ascii "event") value = { c with type := value } :=
  if_pos rfl

theorem field_data (value : Bytes) :
    c.field (ascii "data") value = { c with data := c.data ++ value ++ [lf] } := by
  rw [Client.field, if_neg (by decide), if_pos rfl]

theorem field_id {value : Bytes} (no_nul : 0 ∉ value) :
    c.field (ascii "id") value = { c with idBuffer := value } := by
  rw [Client.field, if_neg (by decide), if_neg (by decide), if_pos rfl, if_neg no_nul]

end Lines

def Filled (line : Bytes) : Prop := OneLine line ∧ line ≠ []

def lineBytes (lines : List Bytes) : Bytes := lines.flatMap (· ++ [lf])

def block (lines : List Bytes) : Bytes := lineBytes lines ++ [lf]

def Client.lines (c : Client) (lines : List Bytes) : Client := lines.foldl (fun c l => (c.line l).1) c

def Client.block (c : Client) (lines : List Bytes) : Client × List Event := (c.lines lines).dispatch

def Client.blocks (c : Client) : List (List Bytes) → Client × List Event
  | [] => (c, [])
  | b :: rest => (((c.block b).1.blocks rest).1, (c.block b).2 ++ ((c.block b).1.blocks rest).2)

/-- The blocks that are complete among the first `n` bytes. -/
def arrived : Nat → List (List Bytes) → List (List Bytes)
  | _, [] => []
  | n, b :: rest => if (block b).length ≤ n then b :: arrived (n - (block b).length) rest else []

section Blocks

variable {c : Client} {lines : List Bytes}

theorem read_lines (filled : ∀ line ∈ lines, Filled line) :
    (Reader.mk c [] false).read (lineBytes lines) = (Reader.mk (c.lines lines) [] false, []) := by
  induction lines generalizing c with
  | nil => rfl
  | cons line lines ih =>
      obtain ⟨one, some_byte⟩ := filled line List.mem_cons_self
      rw [lineBytes, List.flatMap_cons, read_append, read_line one, line_quiet some_byte]
      exact ih fun other mem => filled other (List.mem_cons_of_mem _ mem)

theorem read_block (filled : ∀ line ∈ lines, Filled line) :
    (Reader.mk c [] false).read (block lines) =
      (Reader.mk (c.block lines).1 [] false, (c.block lines).2) := by
  rw [block, read_append, read_lines filled]
  simp [Reader.read, Reader.feed, lf, cr, Client.line, Client.block]

theorem read_lines_take (filled : ∀ line ∈ lines, Filled line) (n : Nat) :
    ((Reader.mk c [] false).read ((lineBytes lines).take n)).2 = [] ∧
    ((Reader.mk c [] false).read ((lineBytes lines).take n)).1.client.lastEventId =
      c.lastEventId := by
  induction lines generalizing c n with
  | nil => simp [lineBytes, Reader.read]
  | cons line lines ih =>
      obtain ⟨one, some_byte⟩ := filled line List.mem_cons_self
      have split : lineBytes (line :: lines) = line ++ ([lf] ++ lineBytes lines) := by
        simp [lineBytes]
      by_cases within : n ≤ line.length
      · have part : OneLine (line.take n) := fun b mem => one b (List.mem_of_mem_take mem)
        rw [split, List.take_append_of_le_length within, read_oneLine part]
        exact ⟨rfl, rfl⟩
      · have past : (lineBytes (line :: lines)).take n =
            (line ++ [lf]) ++ (lineBytes lines).take (n - (line ++ [lf]).length) := by
          rw [split, ← List.append_assoc, List.take_append, List.take_of_length_le]
          rw [List.length_append, List.length_singleton]
          omega
        obtain ⟨quiet, same⟩ := ih (c := (c.line line).1)
          (fun other mem => filled other (List.mem_cons_of_mem _ mem)) (n - (line ++ [lf]).length)
        rw [past, read_append, read_line one, line_quiet some_byte]
        exact ⟨quiet, same.trans (line_keeps some_byte)⟩

theorem read_take {blocks : List (List Bytes)}
    (filled : ∀ b ∈ blocks, ∀ line ∈ b, Filled line) (n : Nat) :
    ((Reader.mk c [] false).read ((blocks.flatMap block).take n)).2 =
      (c.blocks (arrived n blocks)).2 ∧
    ((Reader.mk c [] false).read ((blocks.flatMap block).take n)).1.client.lastEventId =
      (c.blocks (arrived n blocks)).1.lastEventId := by
  induction blocks generalizing c n with
  | nil => simp [Reader.read, arrived, Client.blocks]
  | cons b blocks ih =>
      have own : ∀ line ∈ b, Filled line := filled b List.mem_cons_self
      rw [List.flatMap_cons, arrived]
      by_cases whole : (block b).length ≤ n
      · obtain ⟨events, last⟩ := ih (c := (c.block b).1)
          (fun other mem => filled other (List.mem_cons_of_mem _ mem)) (n - (block b).length)
        rw [if_pos whole, List.take_append, List.take_of_length_le whole, read_append,
          read_block own]
        exact ⟨congrArg ((c.block b).2 ++ ·) events, last⟩
      · have within : n ≤ (lineBytes b).length := by
          rw [block, List.length_append, List.length_singleton] at whole
          omega
        have part : (block b ++ blocks.flatMap block).take n = (lineBytes b).take n := by
          rw [block, List.append_assoc, List.take_append_of_le_length within]
        rw [if_neg whole, part]
        exact read_lines_take own n

end Blocks

section Texts

theorem low_mem_utf8EncodeChar {c : Char} {b : UInt8} (low : b.toNat < 128)
    (mem : b ∈ String.utf8EncodeChar c) : c.toNat = b.toNat := by
  have high : ∀ n, 128 ≤ n → n < 256 → b ≠ UInt8.ofNat n := by
    intro n above below same
    have value := congrArg UInt8.toNat same
    rw [UInt8.toNat_ofNat', Nat.mod_eq_of_lt (by omega)] at value
    omega
  have bound : c.val.toNat < 1114112 := by
    have valid := c.valid
    simp only [UInt32.isValidChar, Nat.isValidChar] at valid
    omega
  simp only [String.utf8EncodeChar] at mem
  split at mem
  · have value := congrArg UInt8.toNat (List.mem_singleton.mp mem)
    rw [UInt8.toNat_ofNat', Nat.mod_eq_of_lt (by omega)] at value
    exact value.symm
  · split at mem
    · simp only [List.mem_cons, List.not_mem_nil, or_false] at mem
      rcases mem with same | same <;> exact absurd same (high _ (by omega) (by omega))
    · split at mem <;> simp only [List.mem_cons, List.not_mem_nil, or_false] at mem
      · rcases mem with same | same | same <;> exact absurd same (high _ (by omega) (by omega))
      · rcases mem with same | same | same | same <;>
          exact absurd same (high _ (by omega) (by omega))

theorem oneLine_of_text {cs : List Char} (printable : ∀ c ∈ cs, c ≠ '\n' ∧ c ≠ '\r') :
    OneLine (cs.flatMap String.utf8EncodeChar) := by
  intro b mem
  obtain ⟨c, listed, here⟩ := List.mem_flatMap.mp mem
  obtain ⟨not_lf, not_cr⟩ := printable c listed
  constructor
  · rintro rfl
    exact not_lf (Char.ext (UInt32.toNat_inj.mp (low_mem_utf8EncodeChar (by decide) here)))
  · rintro rfl
    exact not_cr (Char.ext (UInt32.toNat_inj.mp (low_mem_utf8EncodeChar (by decide) here)))

end Texts

end Scand.Foundation.EventStream
