/- path: Scand/Onec/Preflight
   layer: code model
   digest: assert_public_destination, the check before a connection test: its own reading of the host
   and its own classes of addresses. -/

import Scand.Onec.UrlNormalizer

set_option autoImplicit false
set_option relaxedAutoImplicit false

namespace Scand.Onec.Preflight

open Scand.Foundation.InternetAddress
open Scand.Foundation.TextCuts
open Scand.Onec.Strings
open Scand.Onec.UrlNormalizer (http https schemeEnd localhost isUniqueOrLinkLocal internalUrl)

section Classify

def octet (h : BitVec 32) (shift : Nat) : BitVec 8 := ((h >>> shift) &&& 0xFF).setWidth 8

def isGlobal4 (h : BitVec 32) : Bool :=
  let a := octet h 24
  let b := octet h 16
  !(a = 10 || (a = 172 && b ≥ 16 && b ≤ 31) || (a = 192 && b = 168) || a = 127 ||
    (a = 169 && b = 254) || (a = 100 && b ≥ 64 && b ≤ 127) || a = 0 ||
    (a ≥ 224 && a ≤ 239) || a ≥ 240)

def v4mapped : List Nat := [0, 0, 0, 0, 0, 0, 0, 0, 0, 0, 0xFF, 0xFF]

def v4str (a : BitVec 128) : Text :=
  ['.'].intercalate (((s6Addr a).drop 12).map (Nat.toDigits 10))

/-- The body of `is_global_ip`; a mapped address is asked again by its IPv4 text. -/
def globalStep (again : Text → Bool) (ip : Text) : Bool :=
  match inetPton4 (cStr ip), inetPton6 (cStr ip) with
  | some h, _ => isGlobal4 h
  | none, some a =>
      if s6Addr a = loop6 || isUniqueOrLinkLocal a then false
      else if (s6Addr a).take 12 = v4mapped then again (v4str a)
      else true
  | none, none => false

/-- `is_global_ip`: the second call is of an IPv4 text and calls no further. -/
def isGlobalIp : Text → Bool := globalStep (globalStep fun _ => false)

def isPrivateOrLoopback4 (h : BitVec 32) : Bool :=
  let a := octet h 24
  let b := octet h 16
  a = 10 || (a = 172 && b ≥ 16 && b ≤ 31) || (a = 192 && b = 168) || a = 127 ||
    (a = 169 && b = 254) || (a = 100 && b ≥ 64 && b ≤ 127)

def isPrivateOrLoopback (ip : Text) : Bool :=
  match inetPton4 (cStr ip), inetPton6 (cStr ip) with
  | some h, _ => isPrivateOrLoopback4 h
  | none, some a => s6Addr a = loop6 || isUniqueOrLinkLocal a
  | none, none => false

def isLoopbackHostname (host : Text) : Bool :=
  if host = localhost then true
  else
    match inetPton4 (cStr host), inetPton6 (cStr host) with
    | some h, _ => h >>> 24 = 127
    | none, some a => s6Addr a = loop6
    | none, none => false

end Classify

section Reading

structure HostPort where
  host : Text := []
  port : Int := 80
deriving DecidableEq

def hostPortOf (authority : Text) (port : Int) : HostPort :=
  match authority with
  | '[' :: inside =>
      match cutAt [']'] inside with
      | none => { port }
      | some (host, ':' :: text) => { host, port := (stoi text).getD port }
      | some (host, _) => { host, port }
  | authority =>
      match cutLast ':' authority with
      | none => { host := authority, port }
      | some (host, text) => { host, port := (stoi text).getD port }

def parseHostPort (url : Text) : HostPort :=
  match cutAt schemeEnd url with
  | none => {}
  | some (_, rest) =>
      hostPortOf (rest.takeWhile (· ≠ '/')) (if (https ++ schemeEnd).isPrefixOf url then 443 else 80)

end Reading

section Assert

/-- `resolve_hostname`, which asks for the port as the service. -/
def resolveHostname (resolve : Resolver) (host : Text) (port : Int) : List Text :=
  match resolve (cStr host) (some (toString port).toList) with
  | none => []
  | some addresses => addresses.map inetNtop

def noDestination : String := "Не удалось определить сетевой адрес публикации 1С."

def checkAddresses (addresses : List Text) (allowPrivateNetwork : Bool) : Except String Unit :=
  if addresses.isEmpty then .error noDestination
  else if addresses.all fun ip => isGlobalIp ip || (allowPrivateNetwork && isPrivateOrLoopback ip)
  then .ok ()
  else .error internalUrl

def assertPublicDestination (resolve : Resolver) (publicationUrl : Text)
    (allowLocalLoopback allowPrivateNetwork : Bool) : Except String Unit :=
  let hp := parseHostPort publicationUrl
  if hp.host.isEmpty then .error noDestination
  else if allowLocalLoopback && isLoopbackHostname hp.host then .ok ()
  else
    let isLiteral := (inetPton4 (cStr hp.host)).isSome || (inetPton6 (cStr hp.host)).isSome
    checkAddresses (if isLiteral then [hp.host] else resolveHostname resolve hp.host hp.port)
      allowPrivateNetwork

end Assert

end Scand.Onec.Preflight
