/- path: Scand/Ka2/BalancePath
   layer: code model and its results
   digest: The path that read_balance_chunked and read_page send, in bytes, and when a server reads the
   period, the condition and the dimensions back from it. -/

import Scand.Foundation.RequestPath
import Scand.Ka2.Balance
import Mathlib.Data.List.TakeWhile

set_option autoImplicit false
set_option relaxedAutoImplicit false

namespace Scand.Ka2.BalancePath

open Scand.Foundation.PercentCoding
open Scand.Foundation.RequestPath
open Scand.Ka2.Balance
open Scand.Ka2.Reader

def utf8 (s : String) : Bytes := s.toList.flatMap String.utf8EncodeChar

/-- The bytes that `encode_path_for_cpr` leaves as they are. -/
def isKept (c : UInt8) : Bool :=
  c < 0x80 &&
    c ≠ 0x20 && c ≠ 0x27 && c ≠ 0x22 &&
    c ≠ 0x3C && c ≠ 0x3E && c ≠ 0x23 &&
    c ≠ 0x7B && c ≠ 0x7D && c ≠ 0x7C &&
    c ≠ 0x5C && c ≠ 0x5E && c ≠ 0x60 &&
    c ≥ 0x20

def encodePathForCpr (s : Bytes) : Bytes := percentEncode isKept s

/-- The path of `process_chunk`; only the condition and the dimensions are escaped. -/
def balancePath (registerName period condition dimensions : Bytes) : Bytes :=
  registerName ++ utf8 "/Balance(Period=datetime'" ++ period ++ utf8 "',Condition='" ++
    doubled condition ++ utf8 "',Dimensions='" ++ doubled dimensions ++ utf8 "')"

structure Arguments where
  period : Bytes
  condition : Bytes
  dimensions : Bytes
  deriving DecidableEq

def readBalance (path : Bytes) : Option Arguments := do
  let rest ← (utf8 "/Balance(Period=datetime'").isPrefixOf? (path.dropWhile fun b => b ≠ slash)
  let (period, rest) ← readQuoted rest
  let rest ← (utf8 ",Condition='").isPrefixOf? rest
  let (condition, rest) ← readQuoted rest
  let rest ← (utf8 ",Dimensions='").isPrefixOf? rest
  let (dimensions, rest) ← readQuoted rest
  if rest = utf8 ")" then some ⟨period, condition, dimensions⟩ else none

/-- The arguments that a server reads of a request, which the HTTP client `send` makes of its path. -/
def received (send : Bytes → Option Bytes) (path : Bytes) : Option Arguments :=
  (send (encodePathForCpr path)).bind fun sent => readBalance (percentDecode sent)

/-- The bytes of a name of Unicode letters and underscores. -/
def RegisterName (name : Bytes) : Prop :=
  ∀ b ∈ name, 0x80 ≤ b ∨ (0x41 ≤ b ∧ b ≤ 0x5A) ∨ (0x61 ≤ b ∧ b ≤ 0x7A) ∨ b = 0x5F

/-- A text that a client sends and a server decodes as it is. -/
structure Plain (s : Bytes) : Prop where
  query : questionMark ∉ s
  escape : ¬ HasEscape s
  sendable : delete ∉ s
  dots : ¬ HasDotSegment s

section Texts

theorem utf8_append (s t : String) : utf8 (s ++ t) = utf8 s ++ utf8 t := by
  simp [utf8]

theorem quote_notMem_utf8EncodeChar {c : Char} (other : c.toNat ≠ 39) :
    quote ∉ String.utf8EncodeChar c := by
  have high : ∀ n, 128 ≤ n → n < 256 → UInt8.ofNat n ≠ quote := by
    intro n low below same
    have value := congrArg UInt8.toNat same
    rw [UInt8.toNat_ofNat', Nat.mod_eq_of_lt (by omega)] at value
    have own : quote.toNat = 39 := rfl
    omega
  intro mem
  have own : c.val.toNat ≠ 39 := other
  have bound : c.val.toNat < 1114112 := by
    have valid := c.valid
    simp only [UInt32.isValidChar, Nat.isValidChar] at valid
    omega
  simp only [String.utf8EncodeChar] at mem
  split at mem
  · have value := congrArg UInt8.toNat (List.mem_singleton.mp mem)
    rw [UInt8.toNat_ofNat', Nat.mod_eq_of_lt (by omega)] at value
    exact own value.symm
  · split at mem
    · simp only [List.mem_cons, List.not_mem_nil, or_false] at mem
      rcases mem with same | same <;> exact high _ (by omega) (by omega) same.symm
    · split at mem <;> simp only [List.mem_cons, List.not_mem_nil, or_false] at mem
      · rcases mem with same | same | same <;> exact high _ (by omega) (by omega) same.symm
      · rcases mem with same | same | same | same <;> exact high _ (by omega) (by omega) same.symm

theorem utf8_escapeOdataString (s : String) : utf8 (escapeOdataString s) = doubled (utf8 s) := by
  simp only [escapeOdataString, utf8, String.toList_ofList]
  induction s.toList with
  | nil => rfl
  | cons c rest ih =>
      have split : doubled (String.utf8EncodeChar c ++ rest.flatMap String.utf8EncodeChar) =
          doubled (String.utf8EncodeChar c) ++ doubled (rest.flatMap String.utf8EncodeChar) :=
        List.flatMap_append
      rw [List.flatMap_cons, List.flatMap_append, ih, List.flatMap_cons, split]
      congr 1
      by_cases apostrophe : c.toNat = 39
      · obtain rfl : c = Char.ofNat 39 := by rw [← apostrophe, Char.ofNat_toNat]
        rfl
      · rw [if_neg apostrophe, doubled_of_notMem (quote_notMem_utf8EncodeChar apostrophe)]
        simp

/-- In bytes, the path of a chunk is made of the bytes of its parts. -/
theorem utf8_path (q : BalanceQuery) (chunk : List String) :
    utf8 (q.path chunk) = balancePath (utf8 q.registerName) (utf8 q.period)
      (utf8 (buildGuidFilter q.filterField chunk)) (utf8 q.dimensions) := by
  simp only [BalanceQuery.path, balancePath, utf8_append, utf8_escapeOdataString]

end Texts

section Reading

theorem condition_text : utf8 "',Condition='" = quote :: utf8 ",Condition='" := by decide

theorem dimensions_text : utf8 "',Dimensions='" = quote :: utf8 ",Dimensions='" := by decide

theorem closing_text : utf8 "')" = quote :: utf8 ")" := by decide

variable {s name : Bytes} {a : Arguments}

theorem readBalance_eq_some_iff : readBalance s = some a ↔
    ∃ name, slash ∉ name ∧ s = balancePath name (doubled a.period) a.condition a.dimensions := by
  constructor
  · intro read
    simp only [readBalance, Option.bind_eq_bind, Option.bind_eq_some_iff] at read
    obtain ⟨r₁, opened, ⟨period, r₂⟩, first, r₃, second, ⟨condition, r₄⟩, third, r₅, fourth,
      ⟨dimensions, r₆⟩, fifth, closed⟩ := read
    split at closed
    · rename_i last
      cases closed
      rw [isPrefixOf?_eq_some_iff] at opened second fourth
      have tail := eq_of_readQuoted fifth
      have middle := eq_of_readQuoted third
      have front := eq_of_readQuoted first
      dsimp only at second fourth last ⊢
      refine ⟨s.takeWhile fun b => b ≠ slash, fun mem => ?_, ?_⟩
      · simpa using List.mem_takeWhile_imp mem
      · have behind : (s.dropWhile fun b => b ≠ slash) = utf8 "/Balance(Period=datetime'" ++
            (doubled period ++ quote :: (utf8 ",Condition='" ++ (doubled condition ++ quote ::
              (utf8 ",Dimensions='" ++ (doubled dimensions ++ quote :: utf8 ")"))))) := by
          rw [opened, front, second, middle, fourth, tail, last]
        conv_lhs => rw [← List.takeWhile_append_dropWhile (p := fun b => decide (b ≠ slash)) (l := s)]
        rw [behind]
        simp only [balancePath, condition_text, dimensions_text, closing_text, List.append_assoc,
          List.cons_append]
    · cases closed
  · rintro ⟨name, unslashed, rfl⟩
    have behind : ((balancePath name (doubled a.period) a.condition a.dimensions).dropWhile
        fun b => b ≠ slash) = utf8 "/Balance(Period=datetime'" ++
          (doubled a.period ++ quote :: (utf8 ",Condition='" ++ (doubled a.condition ++ quote ::
            (utf8 ",Dimensions='" ++ (doubled a.dimensions ++ quote :: utf8 ")"))))) := by
      have all : ∀ b ∈ name, decide (b ≠ slash) = true := by
        intro b mem
        exact decide_eq_true fun same => unslashed (same ▸ mem)
      simp only [balancePath, condition_text, dimensions_text, closing_text, List.append_assoc,
        List.cons_append]
      rw [List.dropWhile_append_of_pos all]
      rfl
    have skip : ∀ t rest : Bytes, t.isPrefixOf? (t ++ rest) = some rest :=
      fun t rest => isPrefixOf?_eq_some_iff.mpr rfl
    have comma : (0x2C : UInt8) ≠ quote := by decide
    have second : ∀ t : Bytes, (utf8 ",Condition='" ++ t).head? ≠ some quote :=
      fun _ same => comma (Option.some.inj same)
    have third : ∀ t : Bytes, (utf8 ",Dimensions='" ++ t).head? ≠ some quote :=
      fun _ same => comma (Option.some.inj same)
    have closed : (utf8 ")").head? ≠ some quote := by decide
    rw [readBalance, behind]
    simp only [skip, readQuoted_doubled _ (second _), readQuoted_doubled _ (third _),
      readQuoted_doubled _ closed, Option.bind_eq_bind, Option.bind_some, if_true]

end Reading

section Sending

variable {registerName period condition dimensions : Bytes}

theorem isKept_hexDigit : ∀ b, isHexDigit b = true → isKept b = true := by
  refine forall_byte ?_
  decide +kernel

theorem percentDecode_encodePathForCpr (path : Bytes) :
    percentDecode (encodePathForCpr path) = percentDecode path :=
  percentDecode_percentEncode (by decide) isKept_hexDigit path

theorem mem_encodePathForCpr_iff {b : UInt8} (kept : isKept b = true) (other : b ≠ percent)
    (digit : isHexDigit b = false) (path : Bytes) : b ∈ encodePathForCpr path ↔ b ∈ path :=
  mem_percentEncode_iff kept other digit path

theorem balancePath_cut (registerName period condition dimensions : Bytes) :
    balancePath registerName period condition dimensions =
      registerName ++ slash :: (utf8 "Balance(Period=datetime" ++ quote :: (period ++ quote ::
        (utf8 ",Condition=" ++ quote :: (doubled condition ++ quote ::
          (utf8 ",Dimensions=" ++ quote :: (doubled dimensions ++ quote :: utf8 ")")))))) := by
  have opening : utf8 "/Balance(Period=datetime'" =
      slash :: (utf8 "Balance(Period=datetime" ++ [quote]) := by decide
  have second : utf8 "',Condition='" = quote :: (utf8 ",Condition=" ++ [quote]) := by decide
  have third : utf8 "',Dimensions='" = quote :: (utf8 ",Dimensions=" ++ [quote]) := by decide
  simp only [balancePath, opening, second, third, closing_text, List.append_assoc, List.cons_append,
    List.nil_append]

theorem length_balancePath (registerName period condition dimensions : Bytes) :
    (balancePath registerName period condition dimensions).length =
      registerName.length + period.length + (doubled condition).length + (doubled dimensions).length +
        54 := by
  have opening : (utf8 "Balance(Period=datetime").length = 23 := by decide
  have second : (utf8 ",Condition=").length = 11 := by decide
  have third : (utf8 ",Dimensions=").length = 12 := by decide
  have closing : (utf8 ")").length = 1 := by decide
  rw [balancePath_cut]
  simp only [List.length_append, List.length_cons, opening, second, third, closing]
  omega

theorem RegisterName.notMem (named : RegisterName registerName) {b : UInt8}
    (other : ¬ (0x80 ≤ b ∨ (0x41 ≤ b ∧ b ≤ 0x5A) ∨ (0x61 ≤ b ∧ b ≤ 0x7A) ∨ b = 0x5F)) :
    b ∉ registerName := fun mem => other (named b mem)

theorem mem_balancePath_iff (named : RegisterName registerName) {b : UInt8}
    (other : b = questionMark ∨ b = delete) :
    b ∈ balancePath registerName period condition dimensions ↔
      b ∈ period ∨ b ∈ condition ∨ b ∈ dimensions := by
  have fixed : b ∉ utf8 "Balance(Period=datetime" ∧ b ∉ utf8 ",Condition=" ∧
      b ∉ utf8 ",Dimensions=" ∧ b ∉ utf8 ")" ∧ b ≠ slash ∧ b ≠ quote := by
    rcases other with rfl | rfl <;> decide
  obtain ⟨opening, second, third, closing, no_slash, no_quote⟩ := fixed
  have name : b ∉ registerName := by
    rcases other with rfl | rfl <;> exact named.notMem (by decide)
  rw [balancePath_cut]
  simp only [List.mem_append, List.mem_cons, mem_doubled_iff, name, opening, second, third, closing,
    no_slash, no_quote, false_or, or_false]

theorem hasEscape_balancePath_iff (named : RegisterName registerName) :
    HasEscape (balancePath registerName period condition dimensions) ↔
      HasEscape period ∨ HasEscape condition ∨ HasEscape dimensions := by
  have slashed : slash ≠ percent ∧ isHexDigit slash = false := by decide
  have quoted : quote ≠ percent ∧ isHexDigit quote = false := by decide
  have name : ¬ HasEscape registerName := not_hasEscape_of_notMem (named.notMem (by decide))
  have opening : ¬ HasEscape (utf8 "Balance(Period=datetime") := not_hasEscape_of_notMem (by decide)
  have second : ¬ HasEscape (utf8 ",Condition=") := not_hasEscape_of_notMem (by decide)
  have third : ¬ HasEscape (utf8 ",Dimensions=") := not_hasEscape_of_notMem (by decide)
  have closing : ¬ HasEscape (utf8 ")") := not_hasEscape_of_notMem (by decide)
  rw [balancePath_cut]
  simp only [hasEscape_append_iff slashed.1 slashed.2, hasEscape_append_iff quoted.1 quoted.2,
    hasEscape_doubled_iff, name, opening, second, third, closing, false_or, or_false]

theorem exists_isDots_balancePath_iff (named : RegisterName registerName) :
    (∃ seg ∈ segments (balancePath registerName period condition dimensions), IsDots seg) ↔
      HasDotSegment period ∨ HasDotSegment condition ∨ HasDotSegment dimensions := by
  have quoted : quote ≠ slash ∧ quote ≠ dot := by decide
  have name : dot ∉ registerName := named.notMem (by decide)
  have front : dot ∉ utf8 "Balance(Period=datetime" := by decide
  have opening : ¬ HasDotSegment
      (slash :: (registerName ++ slash :: utf8 "Balance(Period=datetime")) := by
    refine not_hasDotSegment_of_notMem ?_
    rw [List.mem_cons, List.mem_append, List.mem_cons]
    exact not_or.mpr ⟨by decide, not_or.mpr ⟨name, not_or.mpr ⟨by decide, front⟩⟩⟩
  have second : ¬ HasDotSegment (utf8 ",Condition=") := not_hasDotSegment_of_notMem (by decide)
  have third : ¬ HasDotSegment (utf8 ",Dimensions=") := not_hasDotSegment_of_notMem (by decide)
  have closing : ¬ HasDotSegment (utf8 ")" ++ [slash]) := not_hasDotSegment_of_notMem (by decide)
  have regrouped : slash :: balancePath registerName period condition dimensions ++ [slash] =
      (slash :: (registerName ++ slash :: utf8 "Balance(Period=datetime")) ++ quote :: (period ++
        quote :: (utf8 ",Condition=" ++ quote :: (doubled condition ++ quote ::
          (utf8 ",Dimensions=" ++ quote :: (doubled dimensions ++ quote ::
            (utf8 ")" ++ [slash])))))) := by
    rw [balancePath_cut]
    simp only [List.append_assoc, List.cons_append]
  rw [exists_isDots_iff, regrouped]
  simp only [hasDotSegment_append_cons_iff quoted.1 quoted.2, hasDotSegment_doubled_iff, opening,
    second, third, closing, false_or, or_false]

theorem encodePathForCpr_behind (name rest : Bytes) :
    encodePathForCpr (name ++ slash :: rest) =
      encodePathForCpr name ++ slash :: encodePathForCpr rest := by
  have own : encodeByte isKept slash = [slash] := by decide
  simp only [encodePathForCpr, percentEncode, List.flatMap_append, List.flatMap_cons, own,
    List.singleton_append]

theorem isDots_encoded {s seg : Bytes} (mem : seg ∈ segments s) (dots : IsDots seg) :
    seg ∈ segments (encodePathForCpr s) := by
  rw [encodePathForCpr, segments_percentEncode (by decide)]
  refine List.mem_map.mpr ⟨seg, mem, ?_⟩
  rcases dots with rfl | rfl <;> decide

theorem RegisterName.undotted (named : RegisterName registerName) : ¬ IsDots registerName := by
  have no_dot : dot ∉ registerName := named.notMem (by decide)
  rintro (same | same) <;> exact no_dot (by rw [same]; simp)

/-- Of what stands behind the name of the register nothing comes back that is longer, and nothing as
long if the client has taken out segments of dots. -/
theorem RegisterName.tail_le {limit : Nat} {send : Bytes → Option Bytes} (client : Client limit send)
    (named : RegisterName registerName) {rest sent name tail : Bytes}
    (answer : send (encodePathForCpr (registerName ++ slash :: rest)) = some sent)
    (decoded : percentDecode sent = name ++ slash :: tail) :
    tail.length ≤ (percentDecode (beforeQuery rest)).length ∧
      ((percentDecode (beforeQuery rest)).length ≤ tail.length →
        ∀ seg ∈ segments (beforeQuery rest), ¬ IsDots seg) := by
  have no_escape : ¬ HasEscape registerName := not_hasEscape_of_notMem (named.notMem (by decide))
  have name_decodes : percentDecode (encodePathForCpr registerName) = registerName := by
    rw [percentDecode_encodePathForCpr, percentDecode_of_clean no_escape]
  rw [encodePathForCpr_behind] at answer
  obtain ⟨short, clean⟩ := client.tail_le
    (by rw [mem_encodePathForCpr_iff (by decide) (by decide) (by decide)]
        exact named.notMem (by decide))
    (by rw [mem_encodePathForCpr_iff (by decide) (by decide) (by decide)]
        exact named.notMem (by decide))
    (by rw [name_decodes]; exact named.notMem (by decide))
    (by rw [name_decodes]; exact named.undotted) answer decoded
  have cut : beforeQuery (encodePathForCpr rest) = encodePathForCpr (beforeQuery rest) :=
    takeWhile_percentEncode (by decide) (by decide) (by decide) rest
  rw [cut, percentDecode_encodePathForCpr] at short clean
  exact ⟨short, fun long seg mem dots => clean long seg (isDots_encoded mem dots) dots⟩

theorem plain_of_received {limit : Nat} {send : Bytes → Option Bytes} (client : Client limit send)
    (named : RegisterName registerName)
    (read : received send (balancePath registerName period condition dimensions) =
      some ⟨period, condition, dimensions⟩) :
    quote ∉ period ∧ Plain period ∧ Plain condition ∧ Plain dimensions ∧
      (encodePathForCpr (balancePath registerName period condition dimensions)).length ≤ limit := by
  obtain ⟨sent, answer, parsed⟩ := Option.bind_eq_some_iff.mp read
  obtain ⟨name, absent, decoded⟩ := readBalance_eq_some_iff.mp parsed
  have accepted : delete ∉ encodePathForCpr (balancePath registerName period condition dimensions) ∧
      (encodePathForCpr (balancePath registerName period condition dimensions)).length ≤ limit := by
    rw [← Nat.not_lt, ← not_or]
    intro refused
    rw [client.refuses _ refused] at answer
    cases answer
  obtain ⟨rest, path_eq⟩ : ∃ rest, balancePath registerName period condition dimensions =
      registerName ++ slash :: rest := ⟨_, balancePath_cut _ _ _ _⟩
  obtain ⟨tail, tail_eq⟩ : ∃ tail, balancePath name (doubled period) condition dimensions =
      name ++ slash :: tail := ⟨_, balancePath_cut _ _ _ _⟩
  rw [path_eq] at answer
  rw [tail_eq] at decoded
  obtain ⟨short, clean⟩ := named.tail_le client answer decoded
  -- the lengths leave no room for a cut, an escape or a quote
  have whole := length_balancePath registerName period condition dimensions
  have longer := length_balancePath name (doubled period) condition dimensions
  rw [path_eq, List.length_append, List.length_cons] at whole
  rw [tail_eq, List.length_append, List.length_cons, length_doubled] at longer
  have shorter := length_percentDecode_le (beforeQuery rest)
  have part := List.takeWhile_prefix (p := fun b => decide (b ≠ questionMark)) (l := rest)
  have kept : (beforeQuery rest).length ≤ rest.length := part.length_le
  have unquoted : quote ∉ period := List.count_eq_zero.mp (by omega)
  have all : beforeQuery rest = rest := part.eq_of_length (by
    have same : (rest.takeWhile fun b => decide (b ≠ questionMark)).length =
      (beforeQuery rest).length := rfl
    omega)
  have undotted := clean (by omega)
  rw [all] at shorter short undotted
  have no_query : questionMark ∉ balancePath registerName period condition dimensions := by
    rw [path_eq, List.mem_append, List.mem_cons, not_or, not_or]
    refine ⟨named.notMem (by decide), by decide, fun mem => ?_⟩
    rw [← all] at mem
    simpa using List.mem_takeWhile_imp mem
  have unescaped : ¬ HasEscape (balancePath registerName period condition dimensions) := by
    rw [path_eq, hasEscape_append_iff (by decide) (by decide)]
    refine not_or.mpr ⟨not_hasEscape_of_notMem (named.notMem (by decide)), fun escaped => ?_⟩
    have lost := length_percentDecode_lt escaped
    omega
  have undots : ¬ ∃ seg ∈ segments (balancePath registerName period condition dimensions),
      IsDots seg := by
    rintro ⟨seg, mem, dots⟩
    rw [path_eq, segments_cons_slash (named.notMem (by decide))] at mem
    rcases List.mem_cons.mp mem with rfl | later
    · exact named.undotted dots
    · exact undotted seg later dots
  rw [mem_balancePath_iff named (Or.inl rfl)] at no_query
  rw [hasEscape_balancePath_iff named] at unescaped
  rw [exists_isDots_balancePath_iff named] at undots
  have sendable := accepted.1
  rw [mem_encodePathForCpr_iff (by decide) (by decide) (by decide),
    mem_balancePath_iff named (Or.inr rfl)] at sendable
  simp only [not_or] at no_query unescaped undots sendable
  exact ⟨unquoted, ⟨no_query.1, unescaped.1, sendable.1, undots.1⟩,
    ⟨no_query.2.1, unescaped.2.1, sendable.2.1, undots.2.1⟩,
    ⟨no_query.2.2, unescaped.2.2, sendable.2.2, undots.2.2⟩, accepted.2⟩

theorem received_of_plain {limit : Nat} {send : Bytes → Option Bytes} (client : Client limit send)
    (named : RegisterName registerName) (unquoted : quote ∉ period) (first : Plain period)
    (second : Plain condition) (third : Plain dimensions)
    (short : (encodePathForCpr (balancePath registerName period condition dimensions)).length ≤
      limit) :
    received send (balancePath registerName period condition dimensions) =
      some ⟨period, condition, dimensions⟩ := by
  have unescaped : ¬ HasEscape (balancePath registerName period condition dimensions) := by
    rw [hasEscape_balancePath_iff named]
    exact not_or.mpr ⟨first.escape, not_or.mpr ⟨second.escape, third.escape⟩⟩
  have undots : ¬ ∃ seg ∈ segments (balancePath registerName period condition dimensions),
      IsDots seg := by
    rw [exists_isDots_balancePath_iff named]
    exact not_or.mpr ⟨first.dots, not_or.mpr ⟨second.dots, third.dots⟩⟩
  have sent : send (encodePathForCpr (balancePath registerName period condition dimensions)) =
      some (encodePathForCpr (balancePath registerName period condition dimensions)) := by
    apply client.keeps _ _ _ short
    · rw [encodePathForCpr, segments_percentEncode (by decide)]
      intro seg mem dots
      obtain ⟨part, among, rfl⟩ := List.mem_map.mp mem
      have inside : part <:+: balancePath registerName period condition dimensions :=
        infix_of_mem_segments among
      have own : percentDecode (percentEncode isKept part) = part :=
        (percentDecode_encodePathForCpr part).trans
          (percentDecode_of_clean fun escaped => unescaped (escaped.of_infix inside))
      exact undots ⟨part, among, own ▸ dots⟩
    · rw [mem_encodePathForCpr_iff (by decide) (by decide) (by decide),
        mem_balancePath_iff named (Or.inl rfl)]
      exact not_or.mpr ⟨first.query, not_or.mpr ⟨second.query, third.query⟩⟩
    · rw [mem_encodePathForCpr_iff (by decide) (by decide) (by decide),
        mem_balancePath_iff named (Or.inr rfl)]
      exact not_or.mpr ⟨first.sendable, not_or.mpr ⟨second.sendable, third.sendable⟩⟩
  rw [received, sent, Option.bind_some, percentDecode_encodePathForCpr,
    percentDecode_of_clean unescaped, readBalance_eq_some_iff]
  exact ⟨registerName, named.notMem (by decide), by rw [doubled_of_notMem unquoted]⟩

/-- Whatever client sends the path, the server reads the arguments back exactly where the client takes
a path of its length, the period has no quote, and none of the three has a question mark, an escape of
its own, a byte that clients refuse or a segment of dots. -/
theorem arguments_read_back_iff {limit : Nat} {send : Bytes → Option Bytes}
    (client : Client limit send) (registerName period condition dimensions : Bytes)
    (named : RegisterName registerName) :
    received send (balancePath registerName period condition dimensions) =
        some ⟨period, condition, dimensions⟩ ↔
      quote ∉ period ∧ Plain period ∧ Plain condition ∧ Plain dimensions ∧
        (encodePathForCpr (balancePath registerName period condition dimensions)).length ≤ limit := by
  constructor
  · exact plain_of_received client named
  · rintro ⟨unquoted, first, second, third, short⟩
    exact received_of_plain client named unquoted first second third short

end Sending

section Sample

/-- A period that ends its literal, brings a condition and dimensions of its own, and ends the path. -/
def forgedPeriod : Bytes := utf8 "2026-09-23T00:00:00',Condition='Склад_Key eq null',Dimensions='Склад')?"

/-- The server reads the arguments of the forged period, and none of those that were passed. -/
theorem condition_replaced :
    received (sendPath 8000000) (balancePath (utf8 "AccumulationRegister_ТоварыНаСкладах")
        forgedPeriod (utf8 "Номенклатура_Key eq guid'0f0cb4d2-51a7-11ee-9a5b-00155d012345'")
        (utf8 "Номенклатура,Характеристика,Склад")) =
      some ⟨utf8 "2026-09-23T00:00:00", utf8 "Склад_Key eq null", utf8 "Склад"⟩ ∧
    received (sendPath 8000000) (balancePath (utf8 "AccumulationRegister_ТоварыНаСкладах")
        forgedPeriod (utf8 "Номенклатура_Key eq guid'0f0cb4d2-51a7-11ee-9a5b-00155d012345'")
        (utf8 "Номенклатура,Характеристика,Склад")) ≠
      some ⟨forgedPeriod, utf8 "Номенклатура_Key eq guid'0f0cb4d2-51a7-11ee-9a5b-00155d012345'",
        utf8 "Номенклатура,Характеристика,Склад"⟩ := by
  decide +kernel

theorem arguments_read_back_stocks :
    received (sendPath 8000000) (balancePath (utf8 "AccumulationRegister_ТоварыНаСкладах")
        (utf8 "2026/.09./23T00:00:00")
        (utf8 "Номенклатура_Key eq guid'0f0cb4d2-51a7-11ee-9a5b-00155d012345'")
        (utf8 "Номенклатура,Характеристика,Склад")) =
      some ⟨utf8 "2026/.09./23T00:00:00",
        utf8 "Номенклатура_Key eq guid'0f0cb4d2-51a7-11ee-9a5b-00155d012345'",
        utf8 "Номенклатура,Характеристика,Склад"⟩ := by
  have plain : ∀ s, questionMark ∉ s ∧ percent ∉ s ∧ delete ∉ s ∧ ¬ HasDotSegment s → Plain s :=
    fun s given => ⟨given.1, not_hasEscape_of_notMem given.2.1, given.2.2.1, given.2.2.2⟩
  refine (arguments_read_back_iff (client_sendPath 8000000) _ _ _ _ ?_).mpr
    ⟨?_, plain _ ?_, plain _ ?_, plain _ ?_, ?_⟩
  · unfold RegisterName
    decide +kernel
  all_goals decide +kernel

end Sample

end Scand.Ka2.BalancePath
