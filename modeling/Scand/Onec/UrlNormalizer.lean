/- path: Scand/Onec/UrlNormalizer
   layer: code model
   digest: normalize_onec_publication_url: the reading of a publication URL, the checks of its host and
   the URL that it returns. -/

import Scand.Onec.Strings

set_option autoImplicit false
set_option relaxedAutoImplicit false

namespace Scand.Onec.UrlNormalizer

open Scand.Foundation.InternetAddress
open Scand.Foundation.TextCuts
open Scand.Onec.Strings

def http : Text := ['h', 't', 't', 'p']

def https : Text := ['h', 't', 't', 'p', 's']

def schemeEnd : Text := [':', '/', '/']

structure ParsedUrl where
  scheme : Text
  hostname : Text
  /-- Empty where none is given. -/
  port : Text
  path : Text
  hasUserinfo : Bool
  hasQuery : Bool
  hasFragment : Bool
deriving DecidableEq

section Parse

/-- The authority after its user info. -/
def afterUserinfo (authority : Text) : Text :=
  match cutAt ['@'] authority with
  | some (_, rest) => rest
  | none => authority

def bracketPort : Text → Text
  | ':' :: port => port
  | _ => []

def splitAuthority : Text → Option (Text × Text)
  | '[' :: inside =>
      match cutAt [']'] inside with
      | none => none
      | some (host, rest) => some (host, bracketPort rest)
  | authority =>
      match cutLast ':' authority with
      | some (host, port) => some (host, port)
      | none => some (authority, [])

def portAccepted (port : Text) : Bool :=
  port.isEmpty ||
    (port.all Char.isDigit &&
      match stoi port with
      | some p => 1 ≤ p && p ≤ 65535
      | none => false)

def parseUrl (url : Text) : Option ParsedUrl :=
  match cutAt schemeEnd url with
  | none => none
  | some (scheme, rest) =>
      if toLower scheme ≠ http ∧ toLower scheme ≠ https then none
      else
        let noFragment := rest.takeWhile (· ≠ '#')
        let noQuery := noFragment.takeWhile (· ≠ '?')
        let authority := noQuery.takeWhile (· ≠ '/')
        match splitAuthority (afterUserinfo authority) with
        | none => none
        | some (hostname, port) =>
            if hostname.isEmpty then none
            else if portAccepted port then
              some {
                scheme := toLower scheme
                hostname := toLower hostname
                port := port
                path := noQuery.dropWhile (· ≠ '/')
                hasUserinfo := authority.contains '@'
                hasQuery := noFragment.contains '?'
                hasFragment := rest.contains '#' }
            else none

end Parse

section Classify

def isIpLiteral (hostname : Text) : Option Bool :=
  if (inetPton4 (cStr hostname)).isSome then some false
  else if (inetPton6 (cStr hostname)).isSome then some true
  else none

def localhost : Text := ['l', 'o', 'c', 'a', 'l', 'h', 'o', 's', 't']

/-- `is_loopback_ip`: 127.0.0.0/8, ::1 and localhost. -/
def isLoopbackIp (hostname : Text) : Bool :=
  match inetPton4 (cStr hostname), inetPton6 (cStr hostname) with
  | some h, _ => h >>> 24 = 127
  | none, some a => s6Addr a = loop6
  | none, none =>
      let h := toLower hostname
      (if h.getLast? = some '.' then h.dropLast else h) = localhost

/-- `is_private_ip` of an IPv4 address in host order. -/
def isPrivate4 (h : BitVec 32) : Bool :=
  h >>> 24 = 10 ||
  (h >>> 24 = 172 && (h >>> 16) &&& 0xFF ≥ 16 && (h >>> 16) &&& 0xFF ≤ 31) ||
  (h >>> 24 = 192 && (h >>> 16) &&& 0xFF = 168) ||
  (h >>> 24 = 169 && (h >>> 16) &&& 0xFF = 254) ||
  (h >>> 24 = 100 && (h >>> 16) &&& 0xFF ≥ 64 && (h >>> 16) &&& 0xFF ≤ 127) ||
  h >>> 24 = 0

def isUniqueOrLinkLocal (a : BitVec 128) : Bool :=
  (s6Addr a).getD 0 0 &&& 0xFE = 0xFC ||
  ((s6Addr a).getD 0 0 = 0xFE && (s6Addr a).getD 1 0 &&& 0xC0 = 0x80)

def isPrivateIp (hostname : Text) : Bool :=
  match inetPton4 (cStr hostname), inetPton6 (cStr hostname) with
  | some h, _ => isPrivate4 h
  | none, some a => isUniqueOrLinkLocal a
  | none, none => false

/-- `hostname_resolves_to_internal`; a failed resolution counts as one. -/
def hostnameResolvesToInternal (resolve : Resolver) (hostname : Text) : Bool :=
  match resolve (cStr hostname) none with
  | none => true
  | some addresses => addresses.any fun a => isPrivateIp (inetNtop a) || isLoopbackIp (inetNtop a)

end Classify

structure Options where
  allowInsecureHttp : Bool := false
  allowPrivateNetwork : Bool := false

section Normalize

def suffixes : List Text :=
  ["/odata/standard.odata/$metadata".toList, "/odata/standard.odata".toList]

/-- The path without slashes at its end and without the OData suffix. -/
def trimmedPath (path : Text) : Text :=
  let path := (path.reverse.dropWhile (· = '/')).reverse
  match suffixes.find? (endsWithCi path) with
  | some suffix => path.take (path.length - suffix.length)
  | none => path

def publicationUrl (parsed : ParsedUrl) : Text :=
  parsed.scheme ++ schemeEnd ++ parsed.hostname ++
    (if parsed.port.isEmpty then [] else ':' :: parsed.port) ++ trimmedPath parsed.path ++ ['/']

def localTestTarget (options : Options) (parsed : ParsedUrl) : Bool :=
  parsed.scheme = http && options.allowInsecureHttp && isLoopbackIp parsed.hostname

def incorrectUrl : String := "Укажите корректный адрес публикации 1С."

def incompleteUrl : String := "Укажите полный адрес публикации 1С."

def urlWithParameters : String := "Адрес 1С не должен содержать логин, пароль или параметры."

def internalUrl : String := "Адрес 1С не должен указывать на внутреннюю сеть сервиса."

def insecureUrl : String := "Для внешней базы 1С требуется рабочий HTTPS."

def normalizeOnecPublicationUrl (resolve : Resolver) (rawUrl : Text) (options : Options) :
    Except String Text :=
  let value := trim rawUrl
  if value.isEmpty || value.length > 1024 then .error incorrectUrl
  else
    match parseUrl value with
    | none => .error incompleteUrl
    | some parsed =>
        let literal := (isIpLiteral parsed.hostname).isSome
        let exempt := localTestTarget options parsed
        if parsed.hasUserinfo || parsed.hasQuery || parsed.hasFragment then .error urlWithParameters
        else if !options.allowPrivateNetwork && literal && isPrivateIp parsed.hostname && !exempt then
          .error internalUrl
        else if !options.allowPrivateNetwork && !literal && !exempt &&
            hostnameResolvesToInternal resolve parsed.hostname then
          .error internalUrl
        else if parsed.scheme = http && !isLoopbackIp parsed.hostname &&
            !options.allowInsecureHttp then
          .error insecureUrl
        else .ok (publicationUrl parsed)

end Normalize

end Scand.Onec.UrlNormalizer
