/- path: Scand/Onec/AcceptedUrls
   layer: results
   digest: What an accepted publication URL went through, what its authority said, and what the
   connection test reads from the URL that was made of it. -/

import Scand.Onec.Preflight

set_option autoImplicit false
set_option relaxedAutoImplicit false

namespace Scand.Onec.AcceptedUrls

open Scand.Foundation.InternetAddress
open Scand.Foundation.TextCuts
open Scand.Onec.Strings
open Scand.Onec.UrlNormalizer
open Scand.Onec.Preflight

/-- The checks that a URL passed, with its parts as they were read. -/
structure Accepted (resolve : Resolver) (rawUrl : Text) (options : Options) (p : ParsedUrl) :
    Prop where
  parsed : parseUrl (trim rawUrl) = some p
  plain : p.hasUserinfo = false ∧ p.hasQuery = false ∧ p.hasFragment = false
  literal : options.allowPrivateNetwork = false → localTestTarget options p = false →
    (isIpLiteral p.hostname).isSome = true → isPrivateIp p.hostname = false
  resolved : options.allowPrivateNetwork = false → localTestTarget options p = false →
    (isIpLiteral p.hostname).isSome = false → hostnameResolvesToInternal resolve p.hostname = false
  secured : p.scheme = http → isLoopbackIp p.hostname = false → options.allowInsecureHttp = true

theorem accepted_of_ok {resolve : Resolver} {rawUrl url : Text} {options : Options}
    (ok : normalizeOnecPublicationUrl resolve rawUrl options = .ok url) :
    ∃ p, Accepted resolve rawUrl options p ∧ url = publicationUrl p := by
  unfold normalizeOnecPublicationUrl at ok
  dsimp only at ok
  split at ok
  · cases ok
  · split at ok
    · cases ok
    · rename_i p parsed
      split at ok
      · cases ok
      · rename_i plain
        split at ok
        · cases ok
        · rename_i literal
          split at ok
          · cases ok
          · rename_i resolved
            split at ok
            · cases ok
            · rename_i secured
              refine ⟨p, ?_, by cases ok; rfl⟩
              simp only [Bool.or_eq_true, not_or, Bool.not_eq_true] at plain
              exact {
                parsed := parsed
                plain := ⟨plain.1.1, plain.1.2, plain.2⟩
                literal := by
                  intro shut tested here
                  simpa [shut, tested, here] using literal
                resolved := by
                  intro shut tested here
                  simpa [shut, tested, here] using resolved
                secured := by
                  intro scheme remote
                  simpa [scheme, remote] using secured }

def Fits (rawUrl : Text) : Prop := trim rawUrl ≠ [] ∧ (trim rawUrl).length ≤ 1024

theorem fits_of_ok {resolve : Resolver} {rawUrl url : Text} {options : Options}
    (ok : normalizeOnecPublicationUrl resolve rawUrl options = .ok url) : Fits rawUrl := by
  unfold normalizeOnecPublicationUrl at ok
  dsimp only at ok
  split at ok
  · cases ok
  · rename_i fits
    simp only [Bool.or_eq_true, List.isEmpty_iff, decide_eq_true_eq, not_or, not_lt] at fits
    exact fits

theorem ok_of_accepted {resolve : Resolver} {rawUrl : Text} {options : Options} {p : ParsedUrl}
    (fits : Fits rawUrl) (accepted : Accepted resolve rawUrl options p) :
    normalizeOnecPublicationUrl resolve rawUrl options = .ok (publicationUrl p) := by
  obtain ⟨filled, short⟩ := fits
  obtain ⟨no_userinfo, no_query, no_fragment⟩ := accepted.plain
  have literal : (!options.allowPrivateNetwork && (isIpLiteral p.hostname).isSome &&
      isPrivateIp p.hostname && !localTestTarget options p) = false := by
    cases shut : options.allowPrivateNetwork <;> cases tested : localTestTarget options p <;>
      cases here : (isIpLiteral p.hostname).isSome <;> simp
    exact accepted.literal shut tested here
  have resolved : (!options.allowPrivateNetwork && !(isIpLiteral p.hostname).isSome &&
      !localTestTarget options p && hostnameResolvesToInternal resolve p.hostname) = false := by
    cases shut : options.allowPrivateNetwork <;> cases tested : localTestTarget options p <;>
      cases here : (isIpLiteral p.hostname).isSome <;> simp
    exact accepted.resolved shut tested here
  have secured : (decide (p.scheme = http) && !isLoopbackIp p.hostname &&
      !options.allowInsecureHttp) = false := by
    by_cases scheme : p.scheme = http <;> cases remote : isLoopbackIp p.hostname <;> simp [scheme]
    exact accepted.secured scheme remote
  have sized : ((trim rawUrl).isEmpty || decide ((trim rawUrl).length > 1024)) = false := by
    simp [filled, short]
  simp only [normalizeOnecPublicationUrl, sized, accepted.parsed, no_userinfo, no_query, no_fragment,
    literal, resolved, secured, Bool.or_false, Bool.false_eq_true, if_false]

def authorityText (rawUrl : Text) : Text :=
  match cutAt schemeEnd (trim rawUrl) with
  | some (_, rest) => rest.takeWhile (· ≠ '/')
  | none => []

structure ReadFrom (authority : Text) (p : ParsedUrl) : Prop where
  scheme : p.scheme = http ∨ p.scheme = https
  host : ∃ host, splitAuthority authority = some (host, p.port) ∧ host ≠ [] ∧
    p.hostname = toLower host
  port : portAccepted p.port = true
  path : p.path = [] ∨ ∃ rest, p.path = '/' :: rest

theorem parts_of_parseUrl {url : Text} {p : ParsedUrl} (parsed : parseUrl url = some p)
    (plain : p.hasUserinfo = false ∧ p.hasQuery = false ∧ p.hasFragment = false) :
    ∃ scheme rest host, cutAt schemeEnd url = some (scheme, rest) ∧ '#' ∉ rest ∧ '?' ∉ rest ∧
      '@' ∉ rest.takeWhile (· ≠ '/') ∧ p.scheme = toLower scheme ∧
      (p.scheme = http ∨ p.scheme = https) ∧
      splitAuthority (rest.takeWhile (· ≠ '/')) = some (host, p.port) ∧ host ≠ [] ∧
      p.hostname = toLower host ∧ portAccepted p.port = true ∧
      p.path = rest.dropWhile (· ≠ '/') := by
  obtain ⟨no_userinfo, no_query, no_fragment⟩ := plain
  unfold parseUrl at parsed
  dsimp only at parsed
  split at parsed
  · cases parsed
  · rename_i scheme rest cut
    split at parsed
    · cases parsed
    · rename_i known
      split at parsed
      · cases parsed
      · rename_i host port split_at
        split at parsed
        · cases parsed
        · rename_i filled
          split at parsed
          · rename_i in_range
            cases parsed
            dsimp only at no_userinfo no_query no_fragment
            have fragment_free : '#' ∉ rest := by simpa using no_fragment
            rw [takeWhile_ne_of_notMem fragment_free] at split_at no_userinfo no_query ⊢
            have query_free : '?' ∉ rest := by simpa using no_query
            rw [takeWhile_ne_of_notMem query_free] at split_at no_userinfo ⊢
            have userinfo_free : '@' ∉ rest.takeWhile (· ≠ '/') := by simpa using no_userinfo
            rw [afterUserinfo, cutAt_single_eq_none_iff.mpr userinfo_free] at split_at
            refine ⟨scheme, rest, host, cut, fragment_free, query_free, userinfo_free, rfl, ?_,
              split_at, by simpa using filled, rfl, in_range, rfl⟩
            by_cases plain : toLower scheme = http
            · exact Or.inl plain
            · exact Or.inr (by simpa [plain] using known)
          · cases parsed

theorem readFrom_of_accepted {resolve : Resolver} {rawUrl : Text} {options : Options}
    {p : ParsedUrl} (accepted : Accepted resolve rawUrl options p) :
    ReadFrom (authorityText rawUrl) p := by
  obtain ⟨scheme, rest, host, cut, -, -, -, -, known, split_at, filled, lower, in_range, path⟩ :=
    parts_of_parseUrl accepted.parsed accepted.plain
  have text : authorityText rawUrl = rest.takeWhile (· ≠ '/') := by
    rw [authorityText, cut]
  rw [← text] at split_at
  exact {
    scheme := known
    host := ⟨host, split_at, filled, lower⟩
    port := in_range
    path := path ▸ dropWhile_ne_cases '/' rest }

theorem text_of_accepted {resolve : Resolver} {rawUrl : Text} {options : Options}
    {p : ParsedUrl} (accepted : Accepted resolve rawUrl options p) :
    (trim rawUrl).length =
        p.scheme.length + schemeEnd.length + (authorityText rawUrl).length + p.path.length ∧
      '@' ∉ authorityText rawUrl ∧
      ∀ c ∈ authorityText rawUrl ++ p.path, c ≠ '#' ∧ c ≠ '?' := by
  obtain ⟨scheme, rest, host, cut, fragment_free, query_free, userinfo_free, lower, -, -, -, -, -,
    path⟩ := parts_of_parseUrl accepted.parsed accepted.plain
  have text : authorityText rawUrl = rest.takeWhile (· ≠ '/') := by
    rw [authorityText, cut]
  have whole : authorityText rawUrl ++ p.path = rest := by
    rw [text, path, List.takeWhile_append_dropWhile]
  refine ⟨?_, text ▸ userinfo_free, ?_⟩
  · have cut_text := congrArg List.length (eq_of_cutAt cut)
    have rest_size := congrArg List.length whole
    simp only [List.length_append] at cut_text rest_size
    have same : p.scheme.length = scheme.length := by rw [lower, toLower, List.length_map]
    omega
  · rw [whole]
    intro c mem
    exact ⟨fun same => fragment_free (same ▸ mem), fun same => query_free (same ▸ mem)⟩

section Authority

variable {authority host port : Text}

theorem splitAuthority_cases (split_at : splitAuthority authority = some (host, port)) :
    (∃ rest, authority = '[' :: (host ++ ']' :: rest) ∧ ']' ∉ host ∧ port = bracketPort rest) ∨
      authority.head? ≠ some '[' ∧
        ((authority = host ++ ':' :: port ∧ ':' ∉ port) ∨
          (authority = host ∧ port = [] ∧ ':' ∉ host)) := by
  unfold splitAuthority at split_at
  split at split_at
  · rename_i inside
    split at split_at
    · cases split_at
    · rename_i before rest cut
      cases split_at
      obtain ⟨whole, free⟩ := cutAt_single_eq_some_iff.mp cut
      exact Or.inl ⟨rest, by rw [whole], free, rfl⟩
  · rename_i unbracketed
    have plain : authority.head? ≠ some '[' := by
      intro bracket
      obtain ⟨rest, whole⟩ := List.head?_eq_some_iff.mp bracket
      exact unbracketed rest whole
    split at split_at
    · rename_i cut
      cases split_at
      exact Or.inr ⟨plain, Or.inl (cutLast_eq_some_iff.mp cut)⟩
    · rename_i uncut
      cases split_at
      exact Or.inr ⟨plain, Or.inr ⟨rfl, rfl, cutLast_eq_none_iff.mp uncut⟩⟩

theorem portAccepted_cases (accepted : portAccepted port = true) :
    port = [] ∨ (∀ c ∈ port, c.isDigit = true) ∧ ∃ n, stoi port = some n := by
  rw [portAccepted, Bool.or_eq_true, Bool.and_eq_true, List.isEmpty_iff, List.all_eq_true] at accepted
  rcases accepted with empty | ⟨digits, in_range⟩
  · exact Or.inl empty
  · refine Or.inr ⟨digits, ?_⟩
    split at in_range
    · exact ⟨_, by assumption⟩
    · cases in_range

theorem notMem_port (accepted : portAccepted port = true) {c : Char} (other : c.isDigit = false) :
    c ∉ port := by
  rcases portAccepted_cases accepted with rfl | ⟨digits, -⟩
  · exact List.not_mem_nil
  · intro mem
    rw [digits c mem] at other
    cases other

theorem char_toLower_cases (c : Char) :
    (c.toNat < 65 ∨ 90 < c.toNat) ∧ c.toLower = c ∨
      65 ≤ c.toNat ∧ c.toNat ≤ 90 ∧ c.toLower.toNat = c.toNat + 32 := by
  by_cases upper : c.val ≥ 'A'.val ∧ c.val ≤ 'Z'.val
  · have first : 65 ≤ c.toNat := upper.1
    have last : c.toNat ≤ 90 := upper.2
    have shifted : c.toLower.toNat = (c.val + ('a'.val - 'A'.val)).toNat :=
      congrArg Char.toNat (dif_pos upper)
    have wide : (c.val + ('a'.val - 'A'.val)).toNat = (c.toNat + 32) % 2 ^ 32 :=
      UInt32.toNat_add _ _
    exact Or.inr ⟨first, last, by omega⟩
  · refine Or.inl ⟨?_, dif_neg upper⟩
    by_contra inside
    apply upper
    constructor
    · show 65 ≤ c.toNat
      omega
    · show c.toNat ≤ 90
      omega

private theorem eq_of_toLower {c d : Char} (low : c.toNat < 97) (same : d.toLower = c) : d = c := by
  rcases char_toLower_cases d with ⟨-, kept⟩ | ⟨first, -, shifted⟩
  · exact kept.symm.trans same
  · rw [same] at shifted
    omega

theorem toLower_toLower (s : Text) : toLower (toLower s) = toLower s := by
  have twice : ∀ c : Char, c.toLower.toLower = c.toLower := by
    intro c
    rcases char_toLower_cases c with ⟨-, kept⟩ | ⟨first, -, shifted⟩
    · rw [kept, kept]
    · rcases char_toLower_cases c.toLower with ⟨-, kept⟩ | ⟨-, last, -⟩
      · exact kept
      · omega
  rw [toLower, toLower, List.map_map]
  exact List.map_congr_left fun c _ => twice c

theorem mem_toLower_iff {c : Char} (low : c.toNat < 97) (same : c.toLower = c) (s : Text) :
    c ∈ toLower s ↔ c ∈ s := by
  rw [toLower, List.mem_map]
  constructor
  · intro given
    obtain ⟨d, mem, equal⟩ := given
    rw [← eq_of_toLower low equal]
    exact mem
  · intro mem
    exact ⟨c, mem, same⟩

theorem head?_toLower_iff {c : Char} (low : c.toNat < 97) (same : c.toLower = c) (s : Text) :
    (toLower s).head? = some c ↔ s.head? = some c := by
  cases s with
  | nil => simp [toLower]
  | cons d s =>
      simp only [toLower, List.map_cons, List.head?_cons, Option.some.injEq]
      constructor
      · exact eq_of_toLower low
      · intro equal
        rw [equal, same]

end Authority

def defaultPort (p : ParsedUrl) : Int := if p.scheme = https then 443 else 80

def madeAuthority (p : ParsedUrl) : Text :=
  p.hostname ++ (if p.port.isEmpty then [] else ':' :: p.port)

section Made

variable {rawUrl : Text} {p : ParsedUrl}

theorem ReadFrom.hostname_ne_nil {authority : Text} (read : ReadFrom authority p) :
    p.hostname ≠ [] := by
  obtain ⟨host, -, filled, lower⟩ := read.host
  rw [lower, toLower]
  simpa using filled

theorem ReadFrom.notMem_madeAuthority {authority : Text} (read : ReadFrom authority p) {c : Char}
    (free : c ∉ p.hostname) (colon : c ≠ ':') (digit : c.isDigit = false) :
    c ∉ madeAuthority p := by
  rw [madeAuthority, List.mem_append, not_or]
  refine ⟨free, ?_⟩
  split
  · exact List.not_mem_nil
  · rw [List.mem_cons, not_or]
    exact ⟨colon, notMem_port read.port digit⟩

theorem ReadFrom.notMem_hostname {authority : Text} (read : ReadFrom authority p) {c : Char}
    (low : c.toNat < 97) (same : c.toLower = c) (free : c ∉ authority) : c ∉ p.hostname := by
  obtain ⟨host, split_at, -, lower⟩ := read.host
  rw [lower, mem_toLower_iff low same]
  intro mem
  apply free
  rcases splitAuthority_cases split_at with ⟨rest, whole, -⟩ | ⟨-, ⟨whole, -⟩ | ⟨whole, -⟩⟩
  · rw [whole]
    exact List.mem_cons_of_mem _ (List.mem_append_left _ mem)
  · rw [whole]
    exact List.mem_append_left _ mem
  · rw [whole]
    exact mem

theorem slash_notMem_hostname (read : ReadFrom (authorityText rawUrl) p) : '/' ∉ p.hostname := by
  have free : '/' ∉ authorityText rawUrl := by
    unfold authorityText
    split
    · exact notMem_takeWhile_ne '/' _
    · exact List.not_mem_nil
  exact read.notMem_hostname (by decide) (by decide) free

theorem trimmedPath_isPrefix (path : Text) : trimmedPath path <+: path := by
  have bare : (path.reverse.dropWhile (· = '/')).reverse <+: path := by
    have kept := List.reverse_prefix.mpr (List.dropWhile_suffix (l := path.reverse) (· = '/'))
    rwa [List.reverse_reverse] at kept
  unfold trimmedPath
  dsimp only
  split
  · exact (List.take_prefix _ _).trans bare
  · exact bare

theorem trimmedPath_slash (read : ReadFrom (authorityText rawUrl) p) :
    ∃ rest, trimmedPath p.path ++ ['/'] = '/' :: rest := by
  obtain ⟨rest, whole⟩ := trimmedPath_isPrefix p.path
  cases trimmed : trimmedPath p.path with
  | nil => exact ⟨[], rfl⟩
  | cons c path =>
      rw [trimmed, List.cons_append] at whole
      rcases read.path with empty | ⟨more, slash⟩
      · rw [empty] at whole
        cases whole
      · rw [slash, List.cons.injEq] at whole
        exact ⟨path ++ ['/'], by rw [whole.1, List.cons_append]⟩

theorem slash_notMem_madeAuthority (read : ReadFrom (authorityText rawUrl) p) :
    '/' ∉ madeAuthority p :=
  read.notMem_madeAuthority (slash_notMem_hostname read) (by decide) (by decide)

theorem publicationUrl_eq (p : ParsedUrl) : publicationUrl p =
    p.scheme ++ (schemeEnd ++ (madeAuthority p ++ (trimmedPath p.path ++ ['/']))) := by
  simp only [publicationUrl, madeAuthority, List.append_assoc]

theorem cutAt_publicationUrl {authority : Text} (read : ReadFrom authority p) :
    cutAt schemeEnd (publicationUrl p) =
      some (p.scheme, madeAuthority p ++ (trimmedPath p.path ++ ['/'])) := by
  have colon : ':' ∉ p.scheme := by
    rcases read.scheme with scheme | scheme <;> rw [scheme] <;> decide
  rw [publicationUrl_eq, schemeEnd, cutAt_append _ colon, cutAt_here]
  simp

theorem parseHostPort_publicationUrl (read : ReadFrom (authorityText rawUrl) p) :
    parseHostPort (publicationUrl p) = hostPortOf (madeAuthority p) (defaultPort p) := by
  obtain ⟨path, slash⟩ := trimmedPath_slash read
  have free := slash_notMem_madeAuthority read
  have secure : (https ++ schemeEnd).isPrefixOf (publicationUrl p) = decide (p.scheme = https) := by
    rw [publicationUrl_eq]
    rcases read.scheme with scheme | scheme <;> rw [scheme] <;> rfl
  rw [parseHostPort, cutAt_publicationUrl read, secure, slash]
  simp only [takeWhile_ne_append free, decide_eq_true_eq, defaultPort]

/-- The host that the connection test reads. -/
def seenHost (p : ParsedUrl) : Text :=
  if p.hostname.head? = some '[' then []
  else if p.port = [] then
    match cutLast ':' p.hostname with
    | some (before, _) => before
    | none => p.hostname
  else p.hostname

def seenPort (p : ParsedUrl) : Int :=
  if p.hostname.head? = some '[' then defaultPort p
  else if p.port = [] then
    match cutLast ':' p.hostname with
    | some (_, after) => (stoi after).getD (defaultPort p)
    | none => defaultPort p
  else (stoi p.port).getD (defaultPort p)

private theorem hostPortOf_plain {authority : Text} {port : Int}
    (plain : authority.head? ≠ some '[') :
    hostPortOf authority port =
      match cutLast ':' authority with
      | none => { host := authority, port }
      | some (host, text) => { host, port := (stoi text).getD port } := by
  unfold hostPortOf
  split
  · exact absurd rfl plain
  · rfl

theorem ReadFrom.unclosed {authority : Text} (read : ReadFrom authority p)
    (bracket : p.hostname.head? = some '[') : ']' ∉ p.hostname := by
  obtain ⟨host, split_at, -, lower⟩ := read.host
  rw [lower, mem_toLower_iff (by decide) (by decide)]
  rw [lower, head?_toLower_iff (by decide) (by decide)] at bracket
  obtain ⟨more, whole_host⟩ := List.head?_eq_some_iff.mp bracket
  rcases splitAuthority_cases split_at with ⟨rest, -, free, -⟩ | ⟨plain, whole⟩
  · exact free
  · rw [whole_host] at whole
    rcases whole with ⟨whole, -⟩ | ⟨whole, -⟩
    · exact absurd (by rw [whole]; rfl) plain
    · exact absurd (by rw [whole]; rfl) plain

theorem ReadFrom.head?_madeAuthority {authority : Text} (read : ReadFrom authority p) :
    (madeAuthority p).head? = p.hostname.head? := by
  obtain ⟨c, more, whole⟩ := List.exists_cons_of_ne_nil read.hostname_ne_nil
  rw [madeAuthority, whole]
  rfl

theorem hostPortOf_madeAuthority (read : ReadFrom (authorityText rawUrl) p) :
    hostPortOf (madeAuthority p) (defaultPort p) = { host := seenHost p, port := seenPort p } := by
  by_cases bracket : p.hostname.head? = some '['
  · have unclosed := read.unclosed bracket
    have unclosed_made := read.notMem_madeAuthority unclosed (by decide) (by decide)
    obtain ⟨more, whole⟩ := List.head?_eq_some_iff.mp bracket
    have made : madeAuthority p = '[' :: (more ++ if p.port.isEmpty then [] else ':' :: p.port) := by
      rw [madeAuthority, whole, List.cons_append]
    rw [made, List.mem_cons, not_or] at unclosed_made
    rw [made, hostPortOf, cutAt_single_eq_none_iff.mpr unclosed_made.2, seenHost, seenPort,
      if_pos bracket, if_pos bracket]
  · have made_plain : (madeAuthority p).head? ≠ some '[' := by
      rw [read.head?_madeAuthority]
      exact bracket
    rw [hostPortOf_plain made_plain, seenHost, seenPort, if_neg bracket, if_neg bracket]
    by_cases unported : p.port = []
    · have same : madeAuthority p = p.hostname := by
        rw [madeAuthority, unported]
        exact List.append_nil _
      rw [same, if_pos unported, if_pos unported]
      cases cutLast ':' p.hostname with
      | none => rfl
      | some pieces => rfl
    · have same : madeAuthority p = p.hostname ++ ':' :: p.port := by
        simp [madeAuthority, unported]
      rw [same, cutLast_append (notMem_port read.port (by decide)), if_neg unported,
        if_neg unported]

theorem parseHostPort_of_read (read : ReadFrom (authorityText rawUrl) p) :
    parseHostPort (publicationUrl p) = { host := seenHost p, port := seenPort p } :=
  (parseHostPort_publicationUrl read).trans (hostPortOf_madeAuthority read)

end Made

end Scand.Onec.AcceptedUrls
