/- path: Scand/Onec/InternalHosts
   layer: results
   digest: When an accepted publication URL leads outside the networks of the service. -/

import Scand.Onec.AcceptedUrls
import Scand.Onec.AddressClasses

set_option autoImplicit false
set_option relaxedAutoImplicit false

namespace Scand.Onec.InternalHosts

open Scand.Foundation.InternetAddress
open Scand.Onec.Strings
open Scand.Onec.UrlNormalizer
open Scand.Onec.AddressClasses
open Scand.Onec.AcceptedUrls

/-- The addresses that a host stands for: the one it spells out, else those the resolver answers. -/
def designated (resolve : Resolver) (host : Text) : List Address :=
  match readAddress (cStr host) with
  | some a => [a]
  | none => (resolve (cStr host) none).getD []

def MappedInternal : Address → Prop := MappedOf (loopback4 :: thisNetwork4 :: private4)

/-- Loopback, private, link-local, carrier-grade NAT and 0/8, also as IPv4-mapped addresses. -/
def Internal (a : Address) : Prop := Loopback a ∨ Private a ∨ MappedInternal a

def LoopbackHost (host : Text) : Prop :=
  (∃ a, readAddress (cStr host) = some a ∧ Loopback a) ∨
    readAddress (cStr host) = none ∧ LocalName host

/-- The local test target: http, allowed by its flag, to a loopback host. -/
def Exempt (options : Options) (p : ParsedUrl) : Prop :=
  p.scheme = http ∧ options.allowInsecureHttp = true ∧ LoopbackHost p.hostname

section Checks

variable {resolve : Resolver} {host : Text}

theorem localTestTarget_iff {options : Options} {p : ParsedUrl} :
    localTestTarget options p = true ↔ Exempt options p := by
  simp [localTestTarget, Exempt, LoopbackHost, isLoopbackIp_iff, and_assoc]

theorem isIpLiteral_isSome_iff :
    (isIpLiteral host).isSome = true ↔ (readAddress (cStr host)).isSome = true := by
  rcases read_cases (cStr host) with ⟨h, four, read⟩ | ⟨a, four, six, read⟩ | ⟨four, six, read⟩
  · simp [isIpLiteral, four, read]
  · simp [isIpLiteral, four, six, read]
  · simp [isIpLiteral, four, six, read]

theorem resolved_external_iff : hostnameResolvesToInternal resolve host = false ↔
    ∃ addresses, resolve (cStr host) none = some addresses ∧
      ∀ a ∈ addresses, ¬ Private a ∧ ¬ Loopback a := by
  have printed : ∀ a, (isPrivateIp (inetNtop a) || isLoopbackIp (inetNtop a)) = true ↔
      Private a ∨ Loopback a := by
    intro a
    simp [isPrivateIp_iff, isLoopbackIp_iff, cStr_inetNtop, readAddress_inetNtop]
  unfold hostnameResolvesToInternal
  cases resolve (cStr host) none with
  | none => simp
  | some addresses =>
      simp only [List.any_eq_false, printed, not_or, Option.some.injEq, exists_eq_left']

end Checks

section Safety

variable {resolve : Resolver} {rawUrl url : Text} {options : Options}

theorem external_of_accepted {p : ParsedUrl} (accepted : Accepted resolve rawUrl options p)
    (shut : options.allowPrivateNetwork = false) (tested : ¬ Exempt options p) {a : Address}
    (mem : a ∈ designated resolve p.hostname) :
    ¬ Private a ∧ (readAddress (cStr p.hostname) = none → ¬ Loopback a) := by
  have off : localTestTarget options p = false := by
    rw [← Bool.not_eq_true, localTestTarget_iff]
    exact tested
  unfold designated at mem
  cases read : readAddress (cStr p.hostname) with
  | some b =>
      rw [read, List.mem_singleton] at mem
      subst mem
      have literal := isIpLiteral_isSome_iff.mpr (by rw [read]; rfl)
      have checked := accepted.literal shut off literal
      rw [← Bool.not_eq_true, isPrivateIp_iff] at checked
      refine ⟨fun inside => checked ⟨_, read, inside⟩, ?_⟩
      intro none_read
      cases none_read
  | none =>
      have name : (isIpLiteral p.hostname).isSome = false := by
        rw [← Bool.not_eq_true, isIpLiteral_isSome_iff, read]
        simp
      obtain ⟨addresses, answer, external⟩ :=
        resolved_external_iff.mp (accepted.resolved shut off name)
      rw [read, answer] at mem
      exact ⟨(external a mem).1, fun _ => (external a mem).2⟩

/-- An accepted host is external exactly when it is no loopback literal and none of its addresses is an
IPv4-mapped internal one, the local test target apart. -/
theorem accepted_host_external_iff (shut : options.allowPrivateNetwork = false)
    (accepted : normalizeOnecPublicationUrl resolve rawUrl options = .ok url) :
    ∃ p, parseUrl (trim rawUrl) = some p ∧
      ((Exempt options p ∨ ∀ a ∈ designated resolve p.hostname, ¬ Internal a) ↔
        (Exempt options p ∨
          (∀ a, readAddress (cStr p.hostname) = some a → ¬ Loopback a) ∧
            ∀ a ∈ designated resolve p.hostname, ¬ MappedInternal a)) := by
  obtain ⟨p, passed, -⟩ := accepted_of_ok accepted
  refine ⟨p, passed.parsed, or_congr_right' fun tested => ?_⟩
  constructor
  · intro external
    constructor
    · intro a read inside
      have mem : a ∈ designated resolve p.hostname := by
        rw [designated, read]
        exact List.mem_singleton_self a
      exact external a mem (Or.inl inside)
    · intro a mem inside
      exact external a mem (Or.inr (Or.inr inside))
  · intro given a mem inside
    obtain ⟨literal, mapped⟩ := given
    obtain ⟨not_private, not_loopback⟩ := external_of_accepted passed shut tested mem
    rcases inside with loopback | private_here | mapped_here
    · cases read : readAddress (cStr p.hostname) with
      | none => exact not_loopback read loopback
      | some b =>
          rw [designated, read, List.mem_singleton] at mem
          subst mem
          exact literal a read loopback
    · exact not_private private_here
    · exact mapped a mem mapped_here

end Safety

section Sample

/-- The loopback address spelled out is accepted over https. -/
theorem loopback_literal_accepted :
    normalizeOnecPublicationUrl (fun _ _ => none) "https://127.0.0.1/".toList {} =
        .ok "https://127.0.0.1/".toList ∧
      ∃ p, parseUrl (trim "https://127.0.0.1/".toList) = some p ∧ ¬ Exempt {} p ∧
        ∃ a ∈ designated (fun _ _ => none) p.hostname, Internal a := by
  refine ⟨by decide +kernel, _, rfl, ?_, .v4 (ip4 127 0 0 1), ?_, ?_⟩
  · intro exempt
    exact absurd exempt.2.1 (by decide)
  · decide +kernel
  · exact Or.inl (show InAny [loopback4] (ip4 127 0 0 1) by decide)

def sampleResolver : Resolver := fun host _ =>
  if host = "b.example".toList then some [.v4 (ip4 8 8 8 8)] else none

def samplePublication : ParsedUrl where
  scheme := https
  hostname := "b.example".toList
  port := []
  path := "/base/".toList
  hasUserinfo := false
  hasQuery := false
  hasFragment := false

theorem samplePublication_read :
    parseUrl (trim "https://B.example/base/".toList) = some samplePublication := by
  rfl

theorem sample_designated :
    designated sampleResolver "b.example".toList = [.v4 (ip4 8 8 8 8)] := by
  rfl

theorem accepted_host_external_name :
    Exempt {} samplePublication ∨
      ∀ a ∈ designated sampleResolver samplePublication.hostname, ¬ Internal a := by
  have accepted : normalizeOnecPublicationUrl sampleResolver "https://B.example/base/".toList {} =
      .ok "https://b.example/base/".toList := by decide +kernel
  obtain ⟨p, parsed, external⟩ := accepted_host_external_iff rfl accepted
  rw [samplePublication_read, Option.some.injEq] at parsed
  subst parsed
  have name : readAddress (cStr samplePublication.hostname) = none := by decide +kernel
  apply external.mpr
  right
  constructor
  · intro a read
    rw [name] at read
    cases read
  · intro a mem
    rw [samplePublication, sample_designated, List.mem_singleton] at mem
    subst mem
    exact id

end Sample

end Scand.Onec.InternalHosts
