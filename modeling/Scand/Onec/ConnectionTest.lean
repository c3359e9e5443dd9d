/- path: Scand/Onec/ConnectionTest
   layer: results
   digest: When a publication URL that the normalizer accepts also passes the check of the connection
   test. -/

import Scand.Onec.InternalHosts

set_option autoImplicit false
set_option relaxedAutoImplicit false

namespace Scand.Onec.ConnectionTest

open Scand.Foundation.InternetAddress
open Scand.Onec.Strings
open Scand.Onec.UrlNormalizer
open Scand.Onec.Preflight
open Scand.Onec.AddressClasses
open Scand.Onec.AcceptedUrls
open Scand.Onec.InternalHosts

/-- The resolver answers alike with and without a service. -/
def SameForBoth (resolve : Resolver) : Prop :=
  ∀ host service, resolve host (some service) = resolve host none

/-- `localhost` itself, or a loopback address spelled out. -/
def PlainLoopback (host : Text) : Prop :=
  host = localhost ∨ ∃ a, readAddress (cStr host) = some a ∧ Loopback a

/-- A global address, or an internal one that is allowed; multicast, reserved, 0/8 and the mapped forms
of these and of the internal ones are none. -/
def Admitted (allowPrivateNetwork : Bool) (a : Address) : Prop :=
  Global a ∨ allowPrivateNetwork = true ∧
    OfBlocks (loopback4 :: private4) (loopback6 :: private6) a

def AllAdmitted (resolve : Resolver) (allowPrivateNetwork : Bool) (host : Text) : Prop :=
  designated resolve host ≠ [] ∧ ∀ a ∈ designated resolve host, Admitted allowPrivateNetwork a

section Test

variable {resolve : Resolver} {insecure allowPrivate : Bool}

private theorem admitted_text_iff {ip : Text} :
    (isGlobalIp ip || (allowPrivate && isPrivateOrLoopback ip)) = true ↔
      ∃ a, readAddress (cStr ip) = some a ∧ Admitted allowPrivate a := by
  rw [Bool.or_eq_true, Bool.and_eq_true, isGlobalIp_iff, isPrivateOrLoopback_iff]
  cases readAddress (cStr ip) with
  | none => simp
  | some a => simp [Admitted]

theorem checkAddresses_ok_iff {addresses : List Text} :
    checkAddresses addresses allowPrivate = .ok () ↔ addresses ≠ [] ∧
      ∀ ip ∈ addresses, ∃ a, readAddress (cStr ip) = some a ∧ Admitted allowPrivate a := by
  rw [checkAddresses]
  split
  · rename_i none_left
    simp [List.isEmpty_iff.mp none_left]
  · rename_i filled
    rw [List.isEmpty_iff] at filled
    simp only [← admitted_text_iff, ← List.all_eq_true]
    split
    · rename_i all
      simp only [filled, all, ne_eq, not_false_eq_true, and_self]
    · rename_i refused
      simp only [refused, and_false, reduceCtorEq]

theorem checked_iff (same : SameForBoth resolve) (host : Text) (port : Int) :
    checkAddresses (if (inetPton4 (cStr host)).isSome || (inetPton6 (cStr host)).isSome then [host]
        else resolveHostname resolve host port) allowPrivate = .ok () ↔
      AllAdmitted resolve allowPrivate host := by
  rw [checkAddresses_ok_iff, AllAdmitted, designated]
  rcases read_cases (cStr host) with ⟨h, four, read⟩ | ⟨a, four, six, read⟩ | ⟨four, six, read⟩
  · simp [four, read]
  · simp [four, six, read]
  · rw [resolveHostname, same]
    cases resolve (cStr host) none with
    | none => simp [four, six, read]
    | some addresses => simp [four, six, read, cStr_inetNtop, readAddress_inetNtop]

theorem assertPublicDestination_ok_iff (same : SameForBoth resolve) (url : Text) :
    assertPublicDestination resolve url insecure allowPrivate = .ok () ↔
      (parseHostPort url).host ≠ [] ∧
        ((insecure = true ∧ PlainLoopback (parseHostPort url).host) ∨
          AllAdmitted resolve allowPrivate (parseHostPort url).host) := by
  have plain_iff : isLoopbackHostname (parseHostPort url).host = true ↔
      PlainLoopback (parseHostPort url).host := isLoopbackHostname_iff
  rw [assertPublicDestination]
  dsimp only
  split
  · rename_i blank
    simp [List.isEmpty_iff.mp blank]
  · rename_i filled
    rw [List.isEmpty_iff] at filled
    split
    · rename_i exempt
      rw [Bool.and_eq_true, plain_iff] at exempt
      simp [filled, exempt]
    · rename_i strict
      rw [Bool.and_eq_true, plain_iff] at strict
      rw [checked_iff same]
      simp [filled, strict]

/-- An accepted URL passes the connection test exactly when the host that is read back from it is
localhost or a loopback literal under the flag, or stands for addresses that are all admitted. -/
theorem connection_test_passes_iff (same : SameForBoth resolve) {rawUrl url : Text}
    (accepted : normalizeOnecPublicationUrl resolve rawUrl
      { allowInsecureHttp := insecure, allowPrivateNetwork := allowPrivate } = .ok url) :
    ∃ p, parseUrl (trim rawUrl) = some p ∧
      (assertPublicDestination resolve url insecure allowPrivate = .ok () ↔
        seenHost p ≠ [] ∧ ((insecure = true ∧ PlainLoopback (seenHost p)) ∨
          AllAdmitted resolve allowPrivate (seenHost p))) := by
  obtain ⟨p, passed, rfl⟩ := accepted_of_ok accepted
  refine ⟨p, passed.parsed, ?_⟩
  rw [assertPublicDestination_ok_iff same, parseHostPort_of_read (readFrom_of_accepted passed)]

/-- Without the flag for private networks, an accepted name that is read back as itself fails the test
only by a multicast, reserved or IPv4-mapped address. -/
theorem accepted_name_passes (same : SameForBoth resolve) {rawUrl : Text} {p : ParsedUrl}
    (passed : Accepted resolve rawUrl
      { allowInsecureHttp := insecure, allowPrivateNetwork := false } p)
    (remote : ¬ Exempt { allowInsecureHttp := insecure, allowPrivateNetwork := false } p)
    (name : readAddress (cStr p.hostname) = none) (kept : seenHost p = p.hostname)
    (resolved : designated resolve p.hostname ≠ [])
    (usable : ∀ a ∈ designated resolve p.hostname,
      ¬ OfBlocks [multicast4, reserved4] [] a ∧ ¬ MappedOf nonGlobal4 a) :
    assertPublicDestination resolve (publicationUrl p) insecure false = .ok () := by
  have read := readFrom_of_accepted passed
  rw [assertPublicDestination_ok_iff same, parseHostPort_of_read read]
  dsimp only
  rw [kept]
  refine ⟨read.hostname_ne_nil, Or.inr ⟨resolved, ?_⟩⟩
  intro a mem
  obtain ⟨not_private, named⟩ := external_of_accepted passed rfl remote mem
  obtain ⟨not_special, not_mapped⟩ := usable a mem
  have not_loopback := named name
  refine Or.inl ⟨?_, not_mapped⟩
  cases a with
  | v4 h =>
      simp only [OfBlocks, Private, Loopback, nonGlobal4, inAny_cons, inAny_nil, or_false, not_or]
        at not_private not_loopback not_special ⊢
      tauto
  | v6 a =>
      simp only [OfBlocks, Private, Loopback, inAny_cons, inAny_nil, or_false, not_or]
        at not_private not_loopback ⊢
      tauto

end Test

section Sample

/-- A loopback literal over https passes the normalizer and fails the connection test. -/
theorem loopback_literal_refused :
    normalizeOnecPublicationUrl (fun _ _ => none) "https://127.0.0.1/".toList {} =
        .ok "https://127.0.0.1/".toList ∧
      assertPublicDestination (fun _ _ => none) "https://127.0.0.1/".toList false false =
        .error internalUrl := by
  decide +kernel

theorem connection_test_passes_name :
    assertPublicDestination sampleResolver "https://b.example/base/".toList false false = .ok () := by
  have accepted : normalizeOnecPublicationUrl sampleResolver "https://B.example/base/".toList {} =
      .ok "https://b.example/base/".toList := by decide +kernel
  have same : SameForBoth sampleResolver := fun _ _ => rfl
  obtain ⟨p, parsed, passes⟩ := connection_test_passes_iff same accepted
  rw [samplePublication_read, Option.some.injEq] at parsed
  subst parsed
  have seen : seenHost samplePublication = "b.example".toList := by decide +kernel
  apply passes.mpr
  rw [seen]
  refine ⟨by decide +kernel, Or.inr ⟨by rw [sample_designated]; simp, ?_⟩⟩
  intro a mem
  rw [sample_designated, List.mem_singleton] at mem
  subst mem
  exact Or.inl ⟨show ¬ InAny nonGlobal4 (ip4 8 8 8 8) by decide, id⟩

end Sample

end Scand.Onec.ConnectionTest
