/- path: Scand/Onec/HostAgreement
   layer: results
   digest: When the host and the port that are read from the returned URL are those of the configured
   one. -/

import Scand.Onec.AcceptedUrls

set_option autoImplicit false
set_option relaxedAutoImplicit false

namespace Scand.Onec.HostAgreement

open Scand.Foundation.InternetAddress
open Scand.Foundation.TextCuts
open Scand.Onec.Strings
open Scand.Onec.UrlNormalizer
open Scand.Onec.Preflight
open Scand.Onec.AcceptedUrls

def configuredPort (p : ParsedUrl) : Int :=
  if p.port = [] then defaultPort p else (stoi p.port).getD 0

/-- The connection test reads the host and the port of the parts. -/
def Agrees (url : Text) (p : ParsedUrl) : Prop :=
  (parseHostPort url).host = p.hostname ∧ (parseHostPort url).port = configuredPort p

/-- An authority that means the same without its brackets and with an empty port left out. -/
def ReadsBack (authority : Text) : Prop :=
  (∃ inside rest, authority = '[' :: (inside ++ ']' :: rest) ∧ ']' ∉ inside ∧
      inside.head? ≠ some '[' ∧ (':' ∈ inside → ∃ port, port ≠ [] ∧ rest = ':' :: port)) ∨
    (authority.head? ≠ some '[' ∧ (authority.count ':' ≤ 1 ∨ authority.getLast? ≠ some ':'))

section Parts

variable {rawUrl : Text} {p : ParsedUrl}

theorem agrees_iff (read : ReadFrom (authorityText rawUrl) p) :
    Agrees (publicationUrl p) p ↔
      p.hostname.head? ≠ some '[' ∧ (p.port ≠ [] ∨ ':' ∉ p.hostname) := by
  have some_name := read.hostname_ne_nil
  rw [Agrees, parseHostPort_of_read read]
  dsimp only
  by_cases bracket : p.hostname.head? = some '['
  · simp [seenHost, bracket, some_name.symm]
  · by_cases unported : p.port = []
    · cases cut : cutLast ':' p.hostname with
      | none =>
          have free := cutLast_eq_none_iff.mp cut
          simp [seenHost, seenPort, configuredPort, bracket, unported, cut, free]
      | some pieces =>
          obtain ⟨before, after⟩ := pieces
          obtain ⟨whole, -⟩ := cutLast_eq_some_iff.mp cut
          have mem : ':' ∈ p.hostname := by simp [whole]
          have other : before ≠ p.hostname := by
            intro same
            have sizes := congrArg List.length (same.trans whole)
            simp at sizes
          simp [seenHost, bracket, unported, cut, other, mem]
    · rcases portAccepted_cases read.port with empty | ⟨-, n, number⟩
      · exact absurd empty unported
      · simp [seenHost, seenPort, configuredPort, bracket, unported, number]

private theorem bracketPort_ne_nil {rest : Text} :
    bracketPort rest ≠ [] ↔ ∃ port, port ≠ [] ∧ rest = ':' :: port := by
  unfold bracketPort
  split
  · simp
  · rename_i other
    simp only [ne_eq, not_true_eq_false, false_iff, not_exists, not_and]
    intro port _ whole
    exact other port whole

private theorem colon_iff {host port : Text} (free : ':' ∉ port) :
    (host ++ ':' :: port).count ':' ≤ 1 ∨ (host ++ ':' :: port).getLast? ≠ some ':' ↔
      port ≠ [] ∨ ':' ∉ host := by
  rcases List.eq_nil_or_concat port with rfl | ⟨front, d, rfl⟩
  · rw [List.count_append, List.count_singleton_self, List.getLast?_concat, ← List.count_eq_zero]
    simp
  · have last : d ≠ ':' := by
      intro same
      exact free (by simp [same])
    have kept : (host ++ ':' :: (front ++ [d])).getLast? = some d := by
      rw [← List.cons_append, ← List.append_assoc, List.getLast?_concat]
    simp [kept, last]

theorem readsBack_iff (read : ReadFrom (authorityText rawUrl) p) :
    ReadsBack (authorityText rawUrl) ↔
      p.hostname.head? ≠ some '[' ∧ (p.port ≠ [] ∨ ':' ∉ p.hostname) := by
  obtain ⟨host, split_at, filled, lower⟩ := read.host
  rw [lower, mem_toLower_iff (by decide) (by decide), Ne,
    head?_toLower_iff (by decide) (by decide)]
  obtain ⟨c, more, whole_host⟩ := List.exists_cons_of_ne_nil filled
  rcases splitAuthority_cases split_at with ⟨rest, whole, free, ported⟩ | ⟨plain, whole⟩
  · have only : ∀ inside after, authorityText rawUrl = '[' :: (inside ++ ']' :: after) →
        ']' ∉ inside → inside = host ∧ after = rest := by
      intro inside after again free_inside
      rw [whole, List.cons.injEq] at again
      have cut := cutAt_single_eq_some_iff.mpr ⟨again.2, free_inside⟩
      rw [cutAt_single_eq_some_iff.mpr ⟨rfl, free⟩] at cut
      cases cut
      exact ⟨rfl, rfl⟩
    rw [ported, bracketPort_ne_nil]
    constructor
    · intro given
      rcases given with ⟨inside, after, again, free_inside, unnested, colon⟩ | ⟨plain, -⟩
      · obtain ⟨rfl, rfl⟩ := only inside after again free_inside
        exact ⟨unnested, or_iff_not_imp_right.mpr fun mem => colon (not_not.mp mem)⟩
      · exact absurd (by rw [whole]; rfl) plain
    · intro given
      obtain ⟨unnested, colon⟩ := given
      exact Or.inl ⟨host, rest, whole, free, unnested, fun mem => colon.resolve_right (not_not.mpr mem)⟩
  · have bare : ¬ host.head? = some '[' := by
      intro bracket
      apply plain
      rw [whole_host] at bracket
      rcases whole with ⟨whole, -⟩ | ⟨whole, -⟩
      · rw [whole, whole_host]
        exact bracket
      · rw [whole, whole_host]
        exact bracket
    have texts : (authorityText rawUrl).count ':' ≤ 1 ∨
        (authorityText rawUrl).getLast? ≠ some ':' ↔ p.port ≠ [] ∨ ':' ∉ host := by
      rcases whole with ⟨whole, free⟩ | ⟨whole, unported, free⟩
      · rw [whole]
        exact colon_iff free
      · rw [whole, List.count_eq_zero.mpr free]
        simp [free]
    constructor
    · intro given
      rcases given with ⟨inside, after, again, -⟩ | ⟨-, colon⟩
      · exact absurd (by rw [again]; rfl) plain
      · exact ⟨bare, texts.mp colon⟩
    · intro given
      exact Or.inr ⟨plain, texts.mpr given.2⟩

end Parts

/-- The host and the port of an accepted URL are read back from the returned one exactly when its
authority has a bracket with a port or without a colon in it, or no bracket and no colon before an empty
port. -/
theorem host_agreement_iff {resolve : Resolver} {rawUrl url : Text} {options : Options}
    (accepted : normalizeOnecPublicationUrl resolve rawUrl options = .ok url) :
    ∃ p, parseUrl (trim rawUrl) = some p ∧ (Agrees url p ↔ ReadsBack (authorityText rawUrl)) := by
  obtain ⟨p, passed, rfl⟩ := accepted_of_ok accepted
  have read := readFrom_of_accepted passed
  exact ⟨p, passed.parsed, (agrees_iff read).trans (readsBack_iff read).symm⟩

section Sample

/-- A bracketed address without a port: its last group is read as the port. -/
theorem bracketed_host_misread :
    normalizeOnecPublicationUrl (fun _ _ => none) "https://[2001:db8::1]/".toList {} =
        .ok "https://2001:db8::1/".toList ∧
      (parseUrl (trim "https://[2001:db8::1]/".toList)).map (fun p => (p.hostname, p.port)) =
        some ("2001:db8::1".toList, []) ∧
      parseHostPort "https://2001:db8::1/".toList = { host := "2001:db8:".toList, port := 1 } := by
  decide +kernel

theorem host_agreement_with_port :
    ∃ p, parseUrl (trim "https://[2001:DB8::1]:8443/base".toList) = some p ∧
      Agrees "https://2001:db8::1:8443/base/".toList p := by
  have accepted : normalizeOnecPublicationUrl (fun _ _ => none)
      "https://[2001:DB8::1]:8443/base".toList {} = .ok "https://2001:db8::1:8443/base/".toList := by
    decide +kernel
  obtain ⟨p, parsed, agreement⟩ := host_agreement_iff accepted
  have authority : authorityText "https://[2001:DB8::1]:8443/base".toList =
      '[' :: ("2001:DB8::1".toList ++ ']' :: ":8443".toList) := by decide +kernel
  have back : ReadsBack (authorityText "https://[2001:DB8::1]:8443/base".toList) :=
    Or.inl ⟨_, _, authority, by decide +kernel, by decide +kernel,
      fun _ => ⟨"8443".toList, by decide +kernel, by decide +kernel⟩⟩
  exact ⟨p, parsed, agreement.mpr back⟩

end Sample

end Scand.Onec.HostAgreement
