/- path: Scand/Foundation/RequestPath
   layer: library
   digest: What an HTTP client sends of the path of a URL: without its query and its dot segments, and
   nothing of a path that it refuses. -/

import Scand.Foundation.PercentCoding
import Mathlib.Algebra.Order.BigOperators.Group.List
import Mathlib.Algebra.Ring.Nat
import Mathlib.Data.List.Infix
import Mathlib.Data.List.TakeWhile

set_option autoImplicit false
set_option relaxedAutoImplicit false

namespace Scand.Foundation.RequestPath

open Scand.Foundation.PercentCoding

def slash : UInt8 := 0x2F

def dot : UInt8 := 0x2E

def questionMark : UInt8 := 0x3F

def delete : UInt8 := 0x7F

def segments (path : Bytes) : List Bytes := path.splitOn slash

def joined (segs : List Bytes) : Bytes := [slash].intercalate segs

def beforeQuery (path : Bytes) : Bytes := path.takeWhile fun b => b ≠ questionMark

def IsDots (seg : Bytes) : Prop := seg = [dot] ∨ seg = [dot, dot]

instance : DecidablePred IsDots := fun seg => inferInstanceAs (Decidable (seg = _ ∨ seg = _))

def HasDotSegment (s : Bytes) : Prop :=
  [slash, dot, slash] <:+: s ∨ [slash, dot, dot, slash] <:+: s

instance : DecidablePred HasDotSegment := fun s =>
  inferInstanceAs (Decidable (_ <:+: s ∨ _ <:+: s))

/-- What clients document of the path behind the root of a service, which `send` makes of the path that
stands there in a URL: they refuse the byte 0x7F and an overlong URL, they send what precedes the query
without its dot segments and what these take back, and leave every other path as it is. Whether a dot
may be written as an escape is not the same in all of them. -/
structure Client (limit : Nat) (send : Bytes → Option Bytes) : Prop where
  refuses : ∀ path, delete ∈ path ∨ limit < path.length → send path = none
  shortens : ∀ path sent, send path = some sent → ∃ kept ending, sent = joined (kept ++ ending) ∧
    kept.Sublist (segments (beforeQuery path)) ∧ (∀ seg ∈ kept, ¬ IsDots seg) ∧
    (ending = [] ∨ (ending = [[]] ∧
      ∃ seg ∈ segments (beforeQuery path), seg ∉ kept ∧ IsDots (percentDecode seg)))
  keeps : ∀ path, questionMark ∉ path → delete ∉ path → path.length ≤ limit →
    (∀ seg ∈ segments path, ¬ IsDots (percentDecode seg)) → send path = some path

section Segments

variable {s t seg : Bytes} {segs : List Bytes}

theorem joined_segments (s : Bytes) : joined (segments s) = s := List.intercalate_splitOn slash

theorem segments_cons_slash (unslashed : slash ∉ s) :
    segments (s ++ slash :: t) = s :: segments t :=
  List.splitOn_append_cons_self_of_not_mem unslashed t

theorem notMem_of_mem_segments (mem : seg ∈ segments s) : slash ∉ seg := by
  induction s generalizing seg with
  | nil =>
      rw [List.mem_singleton.mp mem]
      exact List.not_mem_nil
  | cons b s ih =>
      rw [segments, List.splitOn_cons_eq_if_modifyHead] at mem
      split at mem
      · rcases List.mem_cons.mp mem with rfl | later
        · exact List.not_mem_nil
        · exact ih later
      · rename_i other
        obtain ⟨first, rest, parts⟩ := List.exists_cons_of_ne_nil (List.splitOn_ne_nil slash s)
        rw [parts, List.modifyHead_cons] at mem
        have free : ∀ part ∈ first :: rest, slash ∉ part := by
          intro part listed
          rw [← parts] at listed
          exact ih listed
        rcases List.mem_cons.mp mem with rfl | later
        · rw [List.mem_cons, not_or]
          exact ⟨fun same => other (by simp [same]), free first List.mem_cons_self⟩
        · exact free seg (List.mem_cons_of_mem _ later)

theorem joined_cons_cons (s t : Bytes) (segs : List Bytes) :
    joined (s :: t :: segs) = s ++ slash :: joined (t :: segs) := by
  simp [joined, List.intercalate_cons_cons]

theorem joined_singleton (s : Bytes) : joined [s] = s := by
  simp [joined]

theorem infix_of_mem_segments (mem : seg ∈ segments s) : seg <:+: s := by
  rw [← joined_segments s]
  generalize segments s = segs at mem
  induction segs with
  | nil => cases mem
  | cons part rest ih =>
      rcases rest with _ | ⟨next, rest⟩
      · rw [List.mem_singleton.mp mem, joined_singleton]
      · rw [joined_cons_cons]
        rcases List.mem_cons.mp mem with rfl | later
        · exact (List.prefix_append _ _).isInfix
        · exact (ih later).trans
            ((List.suffix_cons slash _).trans (List.suffix_append part _)).isInfix

theorem slash_joined (some_left : segs ≠ []) :
    slash :: joined segs = segs.flatMap fun part => slash :: part := by
  induction segs with
  | nil => exact absurd rfl some_left
  | cons part rest ih =>
      rcases rest with _ | ⟨next, rest⟩
      · simp [joined_singleton]
      · rw [joined_cons_cons, List.flatMap_cons, ← ih (List.cons_ne_nil _ _), List.cons_append]

theorem mem_segments_first (unslashed : slash ∉ seg) (cut : s ++ [slash] = seg ++ slash :: t) :
    seg ∈ segments s := by
  rcases List.eq_nil_or_concat t with rfl | ⟨tail, last, rfl⟩
  · obtain ⟨same, -⟩ := List.append_inj' cut rfl
    rw [same, segments, List.splitOn_eq_singleton unslashed]
    exact List.mem_singleton_self seg
  · have before : s ++ [slash] = (seg ++ slash :: tail) ++ [last] := by simpa using cut
    obtain ⟨same, -⟩ := List.append_inj' before rfl
    rw [same, segments_cons_slash unslashed]
    exact List.mem_cons_self

theorem mem_segments_later {rest : Bytes} (unslashed : slash ∉ seg)
    (cut : s ++ [slash] = rest ++ slash :: (seg ++ slash :: t)) : seg ∈ segments s := by
  rcases List.eq_nil_or_concat t with rfl | ⟨tail, last, rfl⟩
  · have before : s ++ [slash] = (rest ++ slash :: seg) ++ [slash] := by simpa using cut
    obtain ⟨same, -⟩ := List.append_inj' before rfl
    rw [same, segments, List.splitOn_append_cons_self, List.splitOn_eq_singleton unslashed]
    simp
  · have before : s ++ [slash] = (rest ++ slash :: (seg ++ slash :: tail)) ++ [last] := by
      simpa using cut
    obtain ⟨same, -⟩ := List.append_inj' before rfl
    rw [same, segments, List.splitOn_append_cons_self,
      List.splitOn_append_cons_self_of_not_mem unslashed]
    simp

theorem mem_segments_iff (unslashed : slash ∉ seg) :
    seg ∈ segments s ↔ slash :: seg ++ [slash] <:+: slash :: s ++ [slash] := by
  constructor
  · intro mem
    obtain ⟨before, after, split⟩ := List.append_of_mem mem
    have text : slash :: s = (before.flatMap fun part => slash :: part) ++ slash :: seg ++
        after.flatMap fun part => slash :: part := by
      rw [← joined_segments s, slash_joined (by rw [split]; simp), split]
      simp
    rcases after with _ | ⟨next, after⟩
    · exact ⟨before.flatMap fun part => slash :: part, [], by rw [text]; simp⟩
    · refine ⟨before.flatMap fun part => slash :: part,
        next ++ (after.flatMap fun part => slash :: part) ++ [slash], ?_⟩
      rw [text]
      simp
  · rintro ⟨before, after, whole⟩
    rcases before with _ | ⟨b, before⟩
    · exact mem_segments_first unslashed (t := after) (by simpa using whole.symm)
    · obtain ⟨-, rest⟩ := List.cons.inj whole
      exact mem_segments_later unslashed (t := after) (by simpa using rest.symm)

theorem exists_isDots_iff :
    (∃ seg ∈ segments s, IsDots seg) ↔ HasDotSegment (slash :: s ++ [slash]) := by
  have one : [dot] ∈ segments s ↔ [slash, dot, slash] <:+: slash :: s ++ [slash] :=
    mem_segments_iff (by decide)
  have two : [dot, dot] ∈ segments s ↔ [slash, dot, dot, slash] <:+: slash :: s ++ [slash] :=
    mem_segments_iff (by decide)
  rw [HasDotSegment, ← one, ← two]
  constructor
  · rintro ⟨seg, mem, rfl | rfl⟩
    · exact Or.inl mem
    · exact Or.inr mem
  · rintro (mem | mem)
    · exact ⟨_, mem, Or.inl rfl⟩
    · exact ⟨_, mem, Or.inr rfl⟩

theorem infix_append_cons_iff {pat : Bytes} {b : UInt8} (other : b ∉ pat) :
    pat <:+: s ++ b :: t ↔ pat <:+: s ∨ pat <:+: t := by
  constructor
  · rintro ⟨before, after, whole⟩
    rw [List.append_assoc] at whole
    rcases List.append_eq_append_iff.mp whole with ⟨mid, front, back⟩ | ⟨mid, front, back⟩
    · rcases List.append_eq_append_iff.mp back with ⟨more, rfl, -⟩ | ⟨more, rfl, rest⟩
      · exact Or.inl ⟨before, more, by rw [front, List.append_assoc]⟩
      · rcases more with _ | ⟨c, more⟩
        · exact Or.inl ⟨before, [], by rw [front]; simp⟩
        · obtain ⟨rfl, -⟩ := List.cons.inj rest
          exact absurd (by simp) other
    · rcases mid with _ | ⟨c, mid⟩
      · rcases pat with _ | ⟨p, pat⟩
        · exact Or.inl (List.nil_infix)
        · obtain ⟨rfl, -⟩ := List.cons.inj back
          exact absurd (by simp) other
      · obtain ⟨rfl, rfl⟩ := List.cons.inj back
        exact Or.inr ⟨mid, after, List.append_assoc mid pat after⟩
  · rintro (⟨before, after, rfl⟩ | ⟨before, after, rfl⟩)
    · exact ⟨before, after ++ b :: t, by simp⟩
    · exact ⟨s ++ b :: before, after, by simp⟩

theorem hasDotSegment_append_cons_iff {b : UInt8} (no_slash : b ≠ slash) (no_dot : b ≠ dot) :
    HasDotSegment (s ++ b :: t) ↔ HasDotSegment s ∨ HasDotSegment t := by
  have one : b ∉ [slash, dot, slash] := by simp [no_slash, no_dot]
  have two : b ∉ [slash, dot, dot, slash] := by simp [no_slash, no_dot]
  rw [HasDotSegment, infix_append_cons_iff one, infix_append_cons_iff two, or_or_or_comm]
  rfl

theorem not_hasDotSegment_of_notMem (plain : dot ∉ s) : ¬ HasDotSegment s := by
  rintro (part | part)
  · exact plain (part.subset (by simp))
  · exact plain (part.subset (by simp))

theorem prefix_doubled_iff {pat : Bytes} (plain : quote ∉ pat) : pat <+: doubled s ↔ pat <+: s := by
  induction pat generalizing s with
  | nil => exact iff_of_true List.nil_prefix List.nil_prefix
  | cons p pat ih =>
      rw [List.mem_cons, not_or] at plain
      rcases s with _ | ⟨b, s⟩
      · rfl
      · by_cases here : b = quote
        · subst here
          rw [doubled_quote, List.cons_prefix_cons, List.cons_prefix_cons]
          exact iff_of_false (fun given => plain.1 given.1.symm) fun given => plain.1 given.1.symm
        · rw [doubled_other here, List.cons_prefix_cons, List.cons_prefix_cons, ih plain.2]

theorem infix_doubled_iff {pat : Bytes} (plain : quote ∉ pat) : pat <:+: doubled s ↔ pat <:+: s := by
  induction s with
  | nil => rfl
  | cons b s ih =>
      have whole : pat <+: doubled (b :: s) ↔ pat <+: b :: s := prefix_doubled_iff plain
      by_cases here : b = quote
      · subst here
        have single : pat <+: quote :: doubled s ↔ pat <+: [] := by
          rcases pat with _ | ⟨p, pat⟩
          · exact iff_of_true List.nil_prefix List.nil_prefix
          · rw [List.mem_cons, not_or] at plain
            rw [List.cons_prefix_cons]
            exact iff_of_false (fun given => plain.1 given.1.symm) (by simp)
        rw [doubled_quote] at whole
        rw [doubled_quote, List.infix_cons_iff, List.infix_cons_iff, List.infix_cons_iff, ih, whole,
          single]
        constructor
        · rintro (starts | starts | inner)
          · exact Or.inl starts
          · exact Or.inl (starts.trans List.nil_prefix)
          · exact Or.inr inner
        · rintro (starts | inner)
          · exact Or.inl starts
          · exact Or.inr (Or.inr inner)
      · rw [doubled_other here] at whole
        rw [doubled_other here, List.infix_cons_iff, List.infix_cons_iff, ih, whole]

theorem hasDotSegment_doubled_iff : HasDotSegment (doubled s) ↔ HasDotSegment s := by
  rw [HasDotSegment, infix_doubled_iff (by decide), infix_doubled_iff (by decide)]
  rfl

end Segments

section Encoding

variable {keep : UInt8 → Bool}

theorem percentEncode_joined (kept : keep slash = true) (segs : List Bytes) :
    percentEncode keep (joined segs) = joined (segs.map (percentEncode keep)) := by
  have own : encodeByte keep slash = [slash] := if_pos kept
  induction segs with
  | nil => rfl
  | cons s segs ih =>
      rcases segs with _ | ⟨t, segs⟩
      · rw [joined_singleton, List.map_singleton, joined_singleton]
      · rw [List.map_cons] at ih
        rw [joined_cons_cons, List.map_cons, List.map_cons, joined_cons_cons, ← ih, percentEncode,
          List.flatMap_append, List.flatMap_cons, own, List.singleton_append]
        rfl

theorem segments_percentEncode (kept : keep slash = true) (path : Bytes) :
    segments (percentEncode keep path) = (segments path).map (percentEncode keep) := by
  have unslashed : ∀ seg ∈ (segments path).map (percentEncode keep), slash ∉ seg := by
    intro seg mem
    obtain ⟨part, among, rfl⟩ := List.mem_map.mp mem
    rw [mem_percentEncode_iff kept (by decide) (by decide)]
    exact notMem_of_mem_segments among
  have some_left : (segments path).map (percentEncode keep) ≠ [] := by
    rw [Ne, List.map_eq_nil_iff]
    exact List.splitOn_ne_nil slash path
  conv_lhs => rw [← joined_segments path]
  rw [percentEncode_joined kept]
  exact List.splitOn_intercalate slash unslashed some_left

end Encoding

section Weights

def weight (segs : List Bytes) : Nat := (segs.map fun seg => (percentDecode seg).length + 1).sum

theorem weight_append (segs segs' : List Bytes) : weight (segs ++ segs') = weight segs + weight segs' := by
  simp [weight]

theorem percentDecode_joined_cons (s t : Bytes) (segs : List Bytes) :
    percentDecode (joined (s :: t :: segs)) =
      percentDecode s ++ slash :: percentDecode (joined (t :: segs)) := by
  rw [joined_cons_cons]
  exact percentDecode_append_cons _ _ (by decide) (by decide)

theorem length_percentDecode_joined {segs : List Bytes} (some_left : segs ≠ []) :
    (percentDecode (joined segs)).length + 1 = weight segs := by
  induction segs with
  | nil => exact absurd rfl some_left
  | cons s segs ih =>
      rcases segs with _ | ⟨t, segs⟩
      · rw [joined_singleton]
        rfl
      · have rest := ih (List.cons_ne_nil _ _)
        rw [percentDecode_joined_cons, List.length_append, List.length_cons]
        rw [show weight (s :: t :: segs) = (percentDecode s).length + 1 + weight (t :: segs) from
          rfl]
        omega

theorem weight_le {segs segs' : List Bytes} (part : segs.Sublist segs') :
    weight segs ≤ weight segs' := by
  induction part with
  | slnil => exact Nat.le_refl 0
  | cons s _ ih => exact Nat.le_trans ih (Nat.le_add_left _ _)
  | cons_cons s _ ih => exact Nat.add_le_add_left ih _

theorem eq_of_weight_le {segs segs' : List Bytes} (part : segs.Sublist segs')
    (heavy : weight segs' ≤ weight segs) : segs = segs' := by
  induction part with
  | slnil => rfl
  | @cons segs segs' s part _ =>
      have light := weight_le part
      have added : weight (s :: segs') = (percentDecode s).length + 1 + weight segs' := rfl
      omega
  | @cons_cons segs segs' s part ih =>
      have left : weight (s :: segs) = (percentDecode s).length + 1 + weight segs := rfl
      have right : weight (s :: segs') = (percentDecode s).length + 1 + weight segs' := rfl
      rw [ih (by omega)]

theorem weight_lt {segs segs' : List Bytes} {seg : Bytes} (part : segs.Sublist segs')
    (mem : seg ∈ segs') (dots : IsDots (percentDecode seg)) (missing : seg ∉ segs) :
    weight segs + 1 < weight segs' := by
  induction part with
  | slnil => cases mem
  | @cons segs segs' s part ih =>
      have added : weight (s :: segs') = (percentDecode s).length + 1 + weight segs' := rfl
      rcases List.mem_cons.mp mem with rfl | later
      · have some_dot : 1 ≤ (percentDecode seg).length := by
          rcases dots with same | same <;>
            · rw [same]
              decide
        have light := weight_le part
        omega
      · have rest := ih later missing
        omega
  | @cons_cons segs segs' s part ih =>
      have left : weight (s :: segs) = (percentDecode s).length + 1 + weight segs := rfl
      have right : weight (s :: segs') = (percentDecode s).length + 1 + weight segs' := rfl
      rw [List.mem_cons, not_or] at missing
      have rest := ih ((List.mem_cons.mp mem).resolve_left missing.1) missing.2
      omega

end Weights

section Sent

variable {limit : Nat} {send : Bytes → Option Bytes} {first rest sent name tail : Bytes}

private theorem length_le_of_unslashed {a b c d : Bytes} (unslashed : slash ∉ a)
    (same : a ++ b = c ++ slash :: d) : a.length ≤ c.length := by
  rcases List.append_eq_append_iff.mp same with ⟨mid, rfl, -⟩ | ⟨mid, rfl, back⟩
  · simp
  · rcases mid with _ | ⟨x, mid⟩
    · simp
    · obtain ⟨rfl, -⟩ := List.cons.inj back
      exact absurd (by simp) unslashed

private theorem percentDecode_joined_first (first : Bytes) (more : List Bytes) :
    ∃ b, percentDecode (joined (first :: more)) = percentDecode first ++ b := by
  rcases more with _ | ⟨next, more⟩
  · exact ⟨[], by rw [joined_singleton, List.append_nil]⟩
  · exact ⟨_, percentDecode_joined_cons first next more⟩

theorem Client.tail_le (client : Client limit send) (unasked : questionMark ∉ first)
    (unslashed : slash ∉ first) (no_slash : slash ∉ percentDecode first)
    (no_dots : ¬ IsDots (percentDecode first))
    (answer : send (first ++ slash :: rest) = some sent)
    (decoded : percentDecode sent = name ++ slash :: tail) :
    tail.length ≤ (percentDecode (beforeQuery rest)).length ∧
      ((percentDecode (beforeQuery rest)).length ≤ tail.length →
        ∀ seg ∈ segments (beforeQuery rest), ¬ IsDots seg) := by
  have cut : beforeQuery (first ++ slash :: rest) = first ++ slash :: beforeQuery rest := by
    have all : ∀ b ∈ first, decide (b ≠ questionMark) = true :=
      fun b mem => decide_eq_true fun same => unasked (same ▸ mem)
    rw [beforeQuery, List.takeWhile_append_of_pos all, List.takeWhile_cons_of_pos (by decide)]
    rfl
  obtain ⟨kept, ending, rfl, part, undotted, ends⟩ := client.shortens _ _ answer
  rw [cut, segments_cons_slash unslashed] at part ends
  generalize behind : segments (beforeQuery rest) = ss at part ends ⊢
  have whole : weight ss = (percentDecode (beforeQuery rest)).length + 1 := by
    rw [← length_percentDecode_joined (by rw [← behind]; exact List.splitOn_ne_nil slash _),
      ← behind, joined_segments]
  have some_left : kept ++ ending ≠ [] := by
    intro none_left
    rw [none_left] at decoded
    simpa [joined, percentDecode] using congrArg List.length decoded
  have total := length_percentDecode_joined some_left
  rw [weight_append, decoded, List.length_append, List.length_cons] at total
  -- the ending weighs one, and then a segment of dots is missing
  have room : weight ending = 0 ∨
      (weight ending = 1 ∧ ∃ seg ∈ ss, seg ∉ kept ∧ IsDots (percentDecode seg)) := by
    rcases ends with rfl | ⟨rfl, seg, mem, gone, dots⟩
    · exact Or.inl rfl
    · rcases List.mem_cons.mp mem with rfl | later
      · exact absurd dots no_dots
      · exact Or.inr ⟨rfl, seg, later, gone, dots⟩
  rcases List.sublist_cons_iff.mp part with later | ⟨ts, rfl, later⟩
  · -- the first segment is gone
    have light := weight_le later
    rcases room with none_added | ⟨added, seg, mem, gone, dots⟩
    · omega
    · have missing := weight_lt later mem dots gone
      omega
  · have head : weight (first :: ts) = (percentDecode first).length + 1 + weight ts := rfl
    have past : (percentDecode first).length ≤ name.length := by
      obtain ⟨b, same⟩ := percentDecode_joined_first first (ts ++ ending)
      rw [← List.cons_append, decoded] at same
      exact length_le_of_unslashed no_slash same.symm
    have light := weight_le later
    rcases room with none_added | ⟨added, seg, mem, gone, dots⟩
    · refine ⟨by omega, fun long => ?_⟩
      rw [← eq_of_weight_le later (by omega)]
      exact fun seg mem => undotted seg (List.mem_cons_of_mem _ mem)
    · have missing := weight_lt later mem dots fun listed => gone (List.mem_cons_of_mem _ listed)
      omega

end Sent

section Sample

def removeDots : List Bytes → List Bytes → Option (List Bytes)
  | above, [] => some above.reverse
  | above, seg :: rest =>
      if seg = [dot] then
        if rest = [] then some (above.reverse ++ [[]]) else removeDots above rest
      else if seg = [dot, dot] then
        match above with
        | [] => none
        | _ :: above => if rest = [] then some (above.reverse ++ [[]]) else removeDots above rest
      else removeDots (seg :: above) rest

def sendPath (limit : Nat) (path : Bytes) : Option Bytes :=
  if delete ∈ path ∨ limit < path.length then none
  else (removeDots [] (segments (beforeQuery path))).map joined

/-- What may be left of some segments, with those above them. -/
private def Leaves (above segs out : List Bytes) : Prop :=
  ∃ kept ending, out = kept ++ ending ∧ kept.Sublist (above.reverse ++ segs) ∧
    (∀ seg ∈ kept, ¬ IsDots seg) ∧ (ending = [] ∨ (ending = [[]] ∧ ∃ seg ∈ segs, IsDots seg))

private theorem Leaves.behind {above above' rest out : List Bytes} {seg : Bytes}
    (left : Leaves above' rest out) (part : above'.Sublist (seg :: above)) :
    Leaves above (seg :: rest) out := by
  obtain ⟨kept, ending, same, sub, free, ends⟩ := left
  have whole : (above'.reverse ++ rest).Sublist (above.reverse ++ seg :: rest) := by
    simpa using part.reverse.append (List.Sublist.refl rest)
  refine ⟨kept, ending, same, sub.trans whole, free, ends.imp_right fun given => ?_⟩
  obtain ⟨dotted, other, mem, dots⟩ := given
  exact ⟨dotted, other, List.mem_cons_of_mem _ mem, dots⟩

private theorem leaves_slash {above above' rest : List Bytes} {seg : Bytes} (dots : IsDots seg)
    (part : above'.Sublist above) (undotted : ∀ seg ∈ above, ¬ IsDots seg) :
    Leaves above (seg :: rest) (above'.reverse ++ [[]]) := by
  refine ⟨above'.reverse, [[]], rfl, part.reverse.trans (List.sublist_append_left _ _), ?_,
    Or.inr ⟨rfl, seg, List.mem_cons_self, dots⟩⟩
  intro seg mem
  exact undotted seg (part.subset (List.mem_reverse.mp mem))

private theorem removeDots_some {above segs out : List Bytes} (removed : removeDots above segs = some out)
    (undotted : ∀ seg ∈ above, ¬ IsDots seg) : Leaves above segs out := by
  induction segs generalizing above with
  | nil =>
      refine ⟨above.reverse, [], ?_, by simp, by simpa using undotted, Or.inl rfl⟩
      rw [List.append_nil]
      exact (Option.some.inj removed).symm
  | cons seg rest ih =>
      unfold removeDots at removed
      split at removed
      · rename_i one
        split at removed
        · obtain rfl := Option.some.inj removed
          exact leaves_slash (Or.inl one) (List.Sublist.refl _) undotted
        · exact (ih removed undotted).behind (List.sublist_cons_self _ _)
      · rename_i no_dot
        split at removed
        · rename_i two
          rcases above with _ | ⟨top, above⟩
          · cases removed
          · dsimp only at removed
            split at removed
            · obtain rfl := Option.some.inj removed
              exact leaves_slash (Or.inr two) (List.sublist_cons_self _ _) undotted
            · have below := ih removed fun part mem => undotted part (List.mem_cons_of_mem _ mem)
              exact below.behind ((List.sublist_cons_self _ _).trans (List.sublist_cons_self _ _))
        · rename_i no_dots
          have free : ¬ IsDots seg := not_or.mpr ⟨no_dot, no_dots⟩
          exact (ih removed (List.forall_mem_cons.mpr ⟨free, undotted⟩)).behind (List.Sublist.refl _)

private theorem removeDots_of_clean {above segs : List Bytes} (clean : ∀ seg ∈ segs, ¬ IsDots seg) :
    removeDots above segs = some (above.reverse ++ segs) := by
  induction segs generalizing above with
  | nil => rw [removeDots, List.append_nil]
  | cons seg rest ih =>
      obtain ⟨free, others⟩ := List.forall_mem_cons.mp clean
      obtain ⟨no_dot, no_dots⟩ := not_or.mp free
      unfold removeDots
      rw [if_neg no_dot, if_neg no_dots, ih others]
      simp

theorem client_sendPath (limit : Nat) : Client limit (sendPath limit) where
  refuses _ refused := if_pos refused
  shortens path sent answer := by
    unfold sendPath at answer
    split at answer
    · cases answer
    · obtain ⟨out, removed, rfl⟩ := Option.map_eq_some_iff.mp answer
      obtain ⟨kept, ending, rfl, part, free, ends⟩ :=
        removeDots_some removed fun _ mem => nomatch mem
      refine ⟨kept, ending, rfl, part, free, ends.imp_right fun given => ?_⟩
      obtain ⟨dotted, seg, mem, dots⟩ := given
      refine ⟨dotted, seg, mem, fun listed => free seg listed dots, ?_⟩
      rcases dots with rfl | rfl <;> decide
  keeps path unasked plain short clean := by
    have whole : beforeQuery path = path :=
      List.takeWhile_eq_self_iff.mpr fun b mem => decide_eq_true fun same => unasked (same ▸ mem)
    have undotted : ∀ seg ∈ segments path, ¬ IsDots seg := by
      rintro seg mem (rfl | rfl)
      · exact clean _ mem (by decide)
      · exact clean _ mem (by decide)
    rw [sendPath, if_neg (by rw [not_or]; exact ⟨plain, by omega⟩), whole,
      removeDots_of_clean undotted, Option.map_some, List.reverse_nil, List.nil_append,
      joined_segments]

end Sample

end Scand.Foundation.RequestPath
