/- path: Scand/Catalog/SecondPass
   layer: results
   digest: What normalize_onec_publication_url makes of a URL that it returned, and when that is the same
   URL. -/

import Scand.Catalog.Pull
import Scand.Onec.ODataSuffix

set_option autoImplicit false
set_option relaxedAutoImplicit false

namespace Scand.Catalog.SecondPass

open Scand.Catalog.Pull (bytes odataRoot)
open Scand.Foundation.InternetAddress (Text)
open Scand.Foundation.TextCuts
open Scand.Onec.AcceptedUrls
open Scand.Onec.ODataSuffix
open Scand.Onec.Strings
open Scand.Onec.UrlNormalizer

structure HostPasses (resolve : Resolver) (options : Options) (p : ParsedUrl) : Prop where
  literal : options.allowPrivateNetwork = false → localTestTarget options p = false →
    (isIpLiteral p.hostname).isSome = true → isPrivateIp p.hostname = false
  resolved : options.allowPrivateNetwork = false → localTestTarget options p = false →
    (isIpLiteral p.hostname).isSome = false → hostnameResolvesToInternal resolve p.hostname = false
  secured : p.scheme = http → isLoopbackIp p.hostname = false → options.allowInsecureHttp = true

/-- A host that is read again: it is not taken for a bracketed one, and where no port follows, what
stands behind its last colon is a port and what stands before it passes as a host. -/
structure ReadAgain (resolve : Resolver) (options : Options) (p : ParsedUrl) : Prop where
  plain : p.hostname.head? ≠ some '['
  colon : p.port = [] → ∀ host port, cutLast ':' p.hostname = some (host, port) →
    host ≠ [] ∧ port ≠ [] ∧ portAccepted port = true ∧
      HostPasses resolve options { p with hostname := host, port := port }

/-- A URL, with its parts, whose normal form is its own normal form. -/
structure Stable (resolve : Resolver) (options : Options) (rawUrl : Text) (p : ParsedUrl) : Prop where
  host : ReadAgain resolve options p
  path : CutOnce p.path
  /-- The slash at the end has room: something is cut, or the URL is shorter than it may be. -/
  room : (trim rawUrl).length < 1024 ∨ (authorityText rawUrl).head? = some '[' ∨
    (authorityText rawUrl).getLast? = some ':' ∨ ¬ Clean p.path

/-- A normalised URL as it is meant: it is normalised to itself, its path ends in one slash and no
suffix, and the root built from it adds the suffix in the place of that slash. -/
structure Settled (resolve : Resolver) (options : Options) (url : Text) : Prop where
  again : normalizeOnecPublicationUrl resolve url options = .ok url
  path : ∃ p base, parseUrl url = some p ∧ p.path = base ++ ['/'] ∧ Clean base
  root : ∃ base, url = base ++ ['/'] ∧ odataRoot url = base ++ bytes "/odata/standard.odata"

def madeParts (p : ParsedUrl) (host port : Text) : ParsedUrl :=
  { p with hostname := host, port := port, path := trimmedPath p.path ++ ['/'] }

section Read

variable {resolve : Resolver} {options : Options} {rawUrl : Text} {p : ParsedUrl}

theorem trim_eq_self {s : Text} {c d : Char} (first : s.head? = some c) (filled : isBlank c = false)
    (last : s.getLast? = some d) (filled' : isBlank d = false) : trim s = s := by
  obtain ⟨tail, whole⟩ := List.head?_eq_some_iff.mp first
  obtain ⟨front, whole'⟩ := List.getLast?_eq_some_iff.mp last
  have kept : s.dropWhile isBlank = s := by
    rw [whole, List.dropWhile_cons_of_neg (by simp [filled])]
  rw [trim, kept, whole', List.reverse_concat, List.dropWhile_cons_of_neg (by simp [filled']),
    List.reverse_cons, List.reverse_reverse]

theorem toLower_scheme (read : ReadFrom (authorityText rawUrl) p) : toLower p.scheme = p.scheme := by
  rcases read.scheme with scheme | scheme <;> rw [scheme] <;> decide

theorem trim_publicationUrl (read : ReadFrom (authorityText rawUrl) p) :
    trim (publicationUrl p) = publicationUrl p := by
  apply trim_eq_self (c := 'h') (d := '/')
  · rw [publicationUrl_eq]
    rcases read.scheme with scheme | scheme <;> rw [scheme] <;> rfl
  · decide
  · rw [publicationUrl, List.getLast?_concat]
  · decide

def reread (p : ParsedUrl) : Option (Text × Text) :=
  if p.hostname.head? = some '[' then none
  else if p.port = [] then some ((cutLast ':' p.hostname).getD (p.hostname, []))
  else some (p.hostname, p.port)

theorem splitAuthority_made (read : ReadFrom (authorityText rawUrl) p) :
    splitAuthority (madeAuthority p) = reread p := by
  by_cases bracket : p.hostname.head? = some '['
  · have unclosed := read.notMem_madeAuthority (read.unclosed bracket) (by decide) (by decide)
    obtain ⟨more, whole⟩ := List.head?_eq_some_iff.mp (read.head?_madeAuthority.trans bracket)
    rw [whole, List.mem_cons, not_or] at unclosed
    rw [whole, splitAuthority, cutAt_single_eq_none_iff.mpr unclosed.2, reread, if_pos bracket]
  · have plain : (madeAuthority p).head? ≠ some '[' := by
      rw [read.head?_madeAuthority]
      exact bracket
    have unbracketed : splitAuthority (madeAuthority p) =
        some ((cutLast ':' (madeAuthority p)).getD (madeAuthority p, [])) := by
      unfold splitAuthority
      split
      · rename_i inside same
        rw [same] at plain
        exact absurd rfl plain
      · cases cutLast ':' (madeAuthority p) with
        | none => rfl
        | some pieces => rfl
    rw [unbracketed, reread, if_neg bracket]
    by_cases unported : p.port = []
    · have same : madeAuthority p = p.hostname := by
        rw [madeAuthority, unported]
        exact List.append_nil _
      rw [if_pos unported, same]
    · have same : madeAuthority p = p.hostname ++ ':' :: p.port := by
        simp [madeAuthority, unported]
      rw [if_neg unported, same, cutLast_append (notMem_port read.port (by decide))]
      rfl

theorem toLower_hostname (read : ReadFrom (authorityText rawUrl) p) :
    toLower p.hostname = p.hostname := by
  obtain ⟨host, -, -, lower⟩ := read.host
  rw [lower, toLower_toLower]

theorem toLower_reread (read : ReadFrom (authorityText rawUrl) p) {host port : Text}
    (again : reread p = some (host, port)) : toLower host = host := by
  have lower := toLower_hostname read
  unfold reread at again
  split at again
  · cases again
  · split at again
    · cases cut : cutLast ':' p.hostname with
      | none =>
          rw [cut] at again
          cases again
          exact lower
      | some pieces =>
          rw [cut] at again
          cases again
          obtain ⟨whole, -⟩ := cutLast_eq_some_iff.mp cut
          rw [whole, toLower_append] at lower
          exact (List.append_inj lower (length_toLower _)).1
    · cases again
      exact lower

theorem notMem_made (read : ReadFrom (authorityText rawUrl) p) {c : Char} (low : c.toNat < 97)
    (same : c.toLower = c) (colon : c ≠ ':') (slash : c ≠ '/') (digit : c.isDigit = false)
    (free : c ∉ authorityText rawUrl ++ p.path) :
    c ∉ madeAuthority p ++ (trimmedPath p.path ++ ['/']) := by
  rw [List.mem_append, not_or] at free ⊢
  refine ⟨read.notMem_madeAuthority (read.notMem_hostname low same free.1) colon digit, ?_⟩
  intro mem
  rcases List.mem_append.mp mem with inner | last
  · exact free.2 ((trimmedPath_isPrefix p.path).subset inner)
  · exact slash (List.mem_singleton.mp last)

theorem parseUrl_made (accepted : Accepted resolve rawUrl options p) :
    parseUrl (publicationUrl p) = (reread p).bind fun pieces =>
      if pieces.1.isEmpty then none
      else if portAccepted pieces.2 then some (madeParts p pieces.1 pieces.2)
      else none := by
  have read := readFrom_of_accepted accepted
  obtain ⟨-, no_at, no_parameter⟩ := text_of_accepted accepted
  obtain ⟨no_userinfo, no_query, no_fragment⟩ := accepted.plain
  have no_hash : '#' ∉ madeAuthority p ++ (trimmedPath p.path ++ ['/']) :=
    notMem_made read (by decide) (by decide) (by decide) (by decide) (by decide)
      fun mem => (no_parameter '#' mem).1 rfl
  have no_mark : '?' ∉ madeAuthority p ++ (trimmedPath p.path ++ ['/']) :=
    notMem_made read (by decide) (by decide) (by decide) (by decide) (by decide)
      fun mem => (no_parameter '?' mem).2 rfl
  have no_slash := slash_notMem_madeAuthority read
  have no_user : '@' ∉ madeAuthority p :=
    read.notMem_madeAuthority (read.notMem_hostname (by decide) (by decide) no_at) (by decide)
      (by decide)
  obtain ⟨rest, slash⟩ := trimmedPath_slash read
  have known : ¬ (toLower p.scheme ≠ http ∧ toLower p.scheme ≠ https) := by
    rw [toLower_scheme read]
    rcases read.scheme with scheme | scheme <;> simp [scheme]
  have authority : (madeAuthority p ++ (trimmedPath p.path ++ ['/'])).takeWhile (· ≠ '/') =
      madeAuthority p := by
    rw [slash, takeWhile_ne_append no_slash]
  have path : (madeAuthority p ++ (trimmedPath p.path ++ ['/'])).dropWhile (· ≠ '/') =
      trimmedPath p.path ++ ['/'] := by
    have whole := List.takeWhile_append_dropWhile
      (p := (· ≠ '/')) (l := madeAuthority p ++ (trimmedPath p.path ++ ['/']))
    rw [authority] at whole
    exact List.append_cancel_left whole
  have bare : afterUserinfo (madeAuthority p) = madeAuthority p := by
    rw [afterUserinfo, cutAt_single_eq_none_iff.mpr no_user]
  rw [parseUrl, cutAt_publicationUrl read]
  dsimp only
  rw [if_neg known, takeWhile_ne_of_notMem no_hash, takeWhile_ne_of_notMem no_mark, authority, bare,
    splitAuthority_made read, path]
  cases again : reread p with
  | none => rfl
  | some pieces =>
      obtain ⟨host, port⟩ := pieces
      simp only [Option.bind_some, toLower_scheme read, toLower_reread read again, madeParts,
        no_userinfo, no_query, no_fragment]
      simp only [List.contains_eq_mem, no_user, no_mark, no_hash, decide_false]

theorem parseUrl_made_iff (accepted : Accepted resolve rawUrl options p) {q : ParsedUrl} :
    parseUrl (publicationUrl p) = some q ↔ ∃ host port, reread p = some (host, port) ∧ host ≠ [] ∧
      portAccepted port = true ∧ q = madeParts p host port := by
  rw [parseUrl_made accepted, Option.bind_eq_some_iff]
  constructor
  · rintro ⟨pieces, again, rest⟩
    split at rest
    · cases rest
    · rename_i some_host
      have filled : pieces.1 ≠ [] := by simpa using some_host
      split at rest
      · rename_i in_range
        exact ⟨pieces.1, pieces.2, again, filled, in_range, (Option.some.inj rest).symm⟩
      · cases rest
  · rintro ⟨host, port, again, filled, in_range, rfl⟩
    have some_host : ¬ host.isEmpty = true := by simpa using filled
    refine ⟨(host, port), again, ?_⟩
    rw [if_neg some_host, if_pos in_range]

theorem length_publicationUrl (p : ParsedUrl) : (publicationUrl p).length =
    p.scheme.length + schemeEnd.length + (madeAuthority p).length + (trimmedPath p.path).length +
      1 := by
  rw [publicationUrl_eq]
  simp only [List.length_append, List.length_singleton]
  omega

theorem length_madeAuthority_cases (read : ReadFrom (authorityText rawUrl) p) :
    ((authorityText rawUrl).head? = some '[' ∨ (authorityText rawUrl).getLast? = some ':') ∧
        (madeAuthority p).length < (authorityText rawUrl).length ∨
      ¬ ((authorityText rawUrl).head? = some '[' ∨ (authorityText rawUrl).getLast? = some ':') ∧
        (madeAuthority p).length = (authorityText rawUrl).length := by
  obtain ⟨host, split_at, filled, lower⟩ := read.host
  have size : p.hostname.length = host.length := by rw [lower, length_toLower]
  rcases splitAuthority_cases split_at with ⟨rest, whole, -, ported⟩ | ⟨plain, ⟨whole, free⟩ | whole⟩
  · refine Or.inl ⟨Or.inl (by rw [whole]; rfl), ?_⟩
    rw [whole, madeAuthority, ported]
    unfold bracketPort
    split
    · rename_i port
      split
      · simp only [List.length_append, List.length_cons, List.length_nil]
        omega
      · simp only [List.length_append, List.length_cons]
        omega
    · simp only [List.isEmpty_nil, if_true, List.length_append, List.length_cons, List.length_nil]
      omega
  · rcases List.eq_nil_or_concat p.port with unported | ⟨front, d, ported⟩
    · rw [unported] at whole
      refine Or.inl ⟨Or.inr (by rw [whole, List.getLast?_concat]), ?_⟩
      rw [whole, madeAuthority, unported]
      simp only [List.isEmpty_nil, if_true, List.length_append, List.length_cons, List.length_nil]
      omega
    · rw [List.concat_eq_append] at ported
      have other : d ≠ ':' := by
        rintro rfl
        apply free
        simp [ported]
      refine Or.inr ⟨?_, ?_⟩
      · rintro (bracket | last)
        · exact plain bracket
        · rw [whole, ported, ← List.cons_append, ← List.append_assoc, List.getLast?_concat] at last
          exact other (Option.some.inj last)
      · have given : p.port.isEmpty = false := by simp [ported]
        rw [whole, madeAuthority, given]
        simp only [Bool.false_eq_true, if_false, List.length_append, List.length_cons]
        omega
  · obtain ⟨whole, unported, free⟩ := whole
    refine Or.inr ⟨?_, ?_⟩
    · rintro (bracket | last)
      · exact plain bracket
      · rw [whole] at last
        exact free (List.mem_of_getLast? last)
    · rw [whole, madeAuthority, unported]
      simp only [List.isEmpty_nil, if_true, List.append_nil]
      exact size

theorem fits_publicationUrl_iff (fits : Fits rawUrl) (accepted : Accepted resolve rawUrl options p) :
    Fits (publicationUrl p) ↔ (trim rawUrl).length < 1024 ∨
      (authorityText rawUrl).head? = some '[' ∨ (authorityText rawUrl).getLast? = some ':' ∨
        ¬ Clean p.path := by
  have read := readFrom_of_accepted accepted
  obtain ⟨written, -⟩ := text_of_accepted accepted
  have made := length_publicationUrl p
  have shorter := (trimmedPath_isPrefix p.path).length_le
  have path_cut : (trimmedPath p.path).length < p.path.length ↔ ¬ Clean p.path :=
    length_trimmedPath_lt_iff
  have filled : publicationUrl p ≠ [] := by
    intro empty
    rw [empty, List.length_nil] at made
    omega
  have short := fits.2
  rw [Fits, trim_publicationUrl read, ← path_cut]
  rcases length_madeAuthority_cases read with ⟨cut, sizes⟩ | ⟨uncut, sizes⟩
  · constructor
    · intro _
      exact Or.inr (or_assoc.mp (Or.inl cut))
    · intro _
      exact ⟨filled, by omega⟩
  · rw [not_or] at uncut
    constructor
    · rintro ⟨-, bound⟩
      by_cases less : (trim rawUrl).length < 1024
      · exact Or.inl less
      · exact Or.inr (Or.inr (Or.inr (by omega)))
    · rintro (less | bracket | last | cut)
      · exact ⟨filled, by omega⟩
      · exact absurd bracket uncut.1
      · exact absurd last uncut.2
      · exact ⟨filled, by omega⟩

theorem HostPasses.of_accepted {rawUrl : Text} (accepted : Accepted resolve rawUrl options p) :
    HostPasses resolve options p where
  literal := accepted.literal
  resolved := accepted.resolved
  secured := accepted.secured

theorem publicationUrl_madeParts {host port : Text}
    (same : madeAuthority (madeParts p host port) = madeAuthority p) :
    publicationUrl (madeParts p host port) = publicationUrl p ↔ Clean (trimmedPath p.path) := by
  rw [publicationUrl_eq, publicationUrl_eq, same, ← trimmedPath_slash_iff]
  simp only [madeParts, List.append_cancel_left_eq, List.append_cancel_right_eq]

structure Remade (resolve : Resolver) (options : Options) (p : ParsedUrl) (host port : Text) :
    Prop where
  filled : host ≠ []
  inRange : portAccepted port = true
  passes : HostPasses resolve options { p with hostname := host, port := port }
  same : publicationUrl (madeParts p host port) = publicationUrl p

theorem made_again_iff (accepted : Accepted resolve rawUrl options p) :
    (∃ q, Accepted resolve (publicationUrl p) options q ∧ publicationUrl p = publicationUrl q) ↔
      ∃ host port, reread p = some (host, port) ∧ Remade resolve options p host port := by
  have trimmed := trim_publicationUrl (readFrom_of_accepted accepted)
  constructor
  · rintro ⟨q, passed, equal⟩
    have parsed := passed.parsed
    rw [trimmed] at parsed
    obtain ⟨host, port, again, filled, in_range, rfl⟩ := (parseUrl_made_iff accepted).mp parsed
    -- the checks of the host do not look at the path
    have passes : HostPasses resolve options { p with hostname := host, port := port } :=
      ⟨passed.literal, passed.resolved, passed.secured⟩
    exact ⟨host, port, again, filled, in_range, passes, equal.symm⟩
  · rintro ⟨host, port, again, remade⟩
    refine ⟨madeParts p host port, ?_, remade.same.symm⟩
    exact {
      parsed := by
        rw [trimmed]
        exact (parseUrl_made_iff accepted).mpr
          ⟨host, port, again, remade.filled, remade.inRange, rfl⟩
      plain := accepted.plain
      literal := remade.passes.literal
      resolved := remade.passes.resolved
      secured := remade.passes.secured }

theorem remade_same_iff (accepted : Accepted resolve rawUrl options p) :
    Remade resolve options p p.hostname p.port ↔ Clean (trimmedPath p.path) := by
  have read := readFrom_of_accepted accepted
  have same : publicationUrl (madeParts p p.hostname p.port) = publicationUrl p ↔ _ :=
    publicationUrl_madeParts rfl
  constructor
  · intro remade
    exact same.mp remade.same
  · intro clean
    exact {
      filled := read.hostname_ne_nil
      inRange := read.port
      passes := HostPasses.of_accepted accepted
      same := same.mpr clean }

theorem remade_cut_iff {host port : Text} (unported : p.port = [])
    (cut : cutLast ':' p.hostname = some (host, port)) :
    Remade resolve options p host port ↔
      (host ≠ [] ∧ port ≠ [] ∧ portAccepted port = true ∧
        HostPasses resolve options { p with hostname := host, port := port }) ∧
      Clean (trimmedPath p.path) := by
  obtain ⟨whole, -⟩ := cutLast_eq_some_iff.mp cut
  have made : madeAuthority p = host ++ ':' :: port := by
    rw [madeAuthority, unported, whole]
    exact List.append_nil _
  have same : port ≠ [] → madeAuthority (madeParts p host port) = madeAuthority p := by
    intro some_port
    rw [made]
    simp [madeAuthority, madeParts, some_port]
  constructor
  · intro remade
    have some_port : port ≠ [] := by
      rintro rfl
      have sizes := congrArg List.length remade.same
      have cut_path : (trimmedPath (trimmedPath p.path ++ ['/'])).length ≤
          (trimmedPath p.path).length := length_trimmedPath_concat
      rw [length_publicationUrl, length_publicationUrl, made] at sizes
      simp only [madeAuthority, madeParts, List.isEmpty_nil, if_true, List.append_nil,
        List.length_append, List.length_singleton] at sizes cut_path
      omega
    exact ⟨⟨remade.filled, some_port, remade.inRange, remade.passes⟩,
      (publicationUrl_madeParts (same some_port)).mp remade.same⟩
  · rintro ⟨⟨filled, some_port, in_range, passes⟩, clean⟩
    exact ⟨filled, in_range, passes, (publicationUrl_madeParts (same some_port)).mpr clean⟩

theorem remade_iff (accepted : Accepted resolve rawUrl options p) :
    (∃ host port, reread p = some (host, port) ∧ Remade resolve options p host port) ↔
      ReadAgain resolve options p ∧ Clean (trimmedPath p.path) := by
  have only : ∀ {host port}, reread p = some (host, port) →
      ((∃ host port, reread p = some (host, port) ∧ Remade resolve options p host port) ↔
        Remade resolve options p host port) := by
    intro host port again
    constructor
    · rintro ⟨host', port', again', remade⟩
      cases again.symm.trans again'
      exact remade
    · intro remade
      exact ⟨host, port, again, remade⟩
  by_cases bracket : p.hostname.head? = some '['
  · constructor
    · rintro ⟨host, port, again, -⟩
      rw [reread, if_pos bracket] at again
      cases again
    · rintro ⟨host, -⟩
      exact absurd bracket host.plain
  · by_cases unported : p.port = []
    · cases cut : cutLast ':' p.hostname with
      | none =>
          have again : reread p = some (p.hostname, p.port) := by
            rw [reread, if_neg bracket, if_pos unported, cut, unported]
            rfl
          rw [only again, remade_same_iff accepted]
          have host : ReadAgain resolve options p := by
            refine ⟨bracket, fun _ host port cut' => ?_⟩
            rw [cut] at cut'
            cases cut'
          exact (and_iff_right host).symm
      | some pieces =>
          have again : reread p = some (pieces.1, pieces.2) := by
            rw [reread, if_neg bracket, if_pos unported, cut]
            rfl
          rw [only again, remade_cut_iff unported cut]
          refine and_congr_left fun _ => ?_
          constructor
          · intro passes
            refine ⟨bracket, fun _ host port cut' => ?_⟩
            cases cut.symm.trans cut'
            exact passes
          · intro host
            exact host.colon unported pieces.1 pieces.2 cut
    · have again : reread p = some (p.hostname, p.port) := by
        rw [reread, if_neg bracket, if_neg unported]
      rw [only again, remade_same_iff accepted]
      have host : ReadAgain resolve options p :=
        ⟨bracket, fun unported' => absurd unported' unported⟩
      exact (and_iff_right host).symm

theorem again_iff (fits : Fits rawUrl) (accepted : Accepted resolve rawUrl options p) :
    normalizeOnecPublicationUrl resolve (publicationUrl p) options = .ok (publicationUrl p) ↔
      Stable resolve options rawUrl p := by
  have room := fits_publicationUrl_iff fits accepted
  have remade := (made_again_iff accepted).trans (remade_iff accepted)
  constructor
  · intro again
    obtain ⟨host, clean⟩ := remade.mp (accepted_of_ok again)
    exact ⟨host, cutOnce_iff.mpr clean, room.mp (fits_of_ok again)⟩
  · intro stable
    obtain ⟨q, passed, same⟩ := remade.mpr ⟨stable.host, cutOnce_iff.mp stable.path⟩
    have made := ok_of_accepted (room.mpr stable.room) passed
    rw [← same] at made
    exact made

theorem settled_iff (accepted : Accepted resolve rawUrl options p) :
    Settled resolve options (publicationUrl p) ↔
      normalizeOnecPublicationUrl resolve (publicationUrl p) options = .ok (publicationUrl p) := by
  constructor
  · exact Settled.again
  · intro again
    have read := readFrom_of_accepted accepted
    obtain ⟨q, passed, same⟩ := accepted_of_ok again
    obtain ⟨-, clean⟩ := (remade_iff accepted).mp ((made_again_iff accepted).mp ⟨q, passed, same⟩)
    have parsed := passed.parsed
    rw [trim_publicationUrl read] at parsed
    have path : q.path = trimmedPath p.path ++ ['/'] := by
      obtain ⟨host, port, -, -, -, rfl⟩ := (parseUrl_made_iff accepted).mp parsed
      rfl
    have whole : publicationUrl p =
        p.scheme ++ (schemeEnd ++ (madeAuthority p ++ trimmedPath p.path)) ++ ['/'] := by
      rw [publicationUrl_eq]
      simp only [List.append_assoc]
    have last : (p.scheme ++ (schemeEnd ++ (madeAuthority p ++ trimmedPath p.path))).getLast? ≠
        some '/' := by
      have some_authority : madeAuthority p ≠ [] := by
        rw [madeAuthority]
        simp [read.hostname_ne_nil]
      rw [List.getLast?_append_of_ne_nil _ (by simp [schemeEnd]),
        List.getLast?_append_of_ne_nil _ (by simp [some_authority])]
      by_cases bare : trimmedPath p.path = []
      · rw [bare, List.append_nil]
        intro slash
        exact slash_notMem_madeAuthority read (List.mem_of_getLast? slash)
      · rw [List.getLast?_append_of_ne_nil _ bare]
        exact clean.slash
    refine ⟨again, ⟨q, _, parsed, path, clean⟩, _, whole, ?_⟩
    rw [odataRoot, whole]
    exact congrArg (· ++ bytes "/odata/standard.odata") (withoutSlashes_eq last 1)

end Read

/-- A normalised URL is settled exactly when the URL that it came from is stable. -/
theorem settled_iff_stable {resolve : Resolver} {rawUrl url : Text} {options : Options}
    (ok : normalizeOnecPublicationUrl resolve rawUrl options = .ok url) :
    ∃ p, parseUrl (trim rawUrl) = some p ∧
      (Settled resolve options url ↔ Stable resolve options rawUrl p) := by
  obtain ⟨p, accepted, rfl⟩ := accepted_of_ok ok
  exact ⟨p, accepted.parsed,
    (settled_iff accepted).trans (again_iff (fits_of_ok ok) accepted)⟩

section Sample

/-- An address that carries the suffix twice keeps one of them, and loses it in a second pass. -/
theorem doubled_suffix_unsettled : ∃ url,
    normalizeOnecPublicationUrl (fun _ _ => none)
        "https://93.184.216.34/base/odata/standard.odata/odata/standard.odata".toList {} = .ok url ∧
      ¬ Settled (fun _ _ => none) {} url := by
  refine ⟨"https://93.184.216.34/base/odata/standard.odata/".toList, by decide +kernel, ?_⟩
  intro settled
  have second : normalizeOnecPublicationUrl (fun _ _ => none)
      "https://93.184.216.34/base/odata/standard.odata/".toList {} =
        .ok "https://93.184.216.34/base/".toList := by decide +kernel
  have same := Except.ok.inj (settled.again.symm.trans second)
  revert same
  decide

theorem suffixed_address_settled : ∃ p,
    parseUrl (trim "https://93.184.216.34:8443/base/OData/Standard.odata//".toList) = some p ∧
      (Settled (fun _ _ => none) {} "https://93.184.216.34:8443/base/".toList ↔
        Stable (fun _ _ => none) {} "https://93.184.216.34:8443/base/OData/Standard.odata//".toList p) :=
  settled_iff_stable (by decide +kernel)

end Sample

end Scand.Catalog.SecondPass
