/- path: Scand/Onec/Strings
   layer: code model
   digest: The string functions that the address checks share, and the resolver. A text is the list of
   its bytes, each written as the character of that number. -/

import Scand.Foundation.InternetAddress

set_option autoImplicit false
set_option relaxedAutoImplicit false

namespace Scand.Onec.Strings

open Scand.Foundation.InternetAddress

def toLower (s : Text) : Text := s.map Char.toLower

def isBlank (c : Char) : Bool := c = ' ' || c = '\t' || c = '\r' || c = '\n'

def trim (s : Text) : Text := ((s.dropWhile isBlank).reverse.dropWhile isBlank).reverse

def endsWithCi (s suffix : Text) : Bool :=
  suffix.length ≤ s.length && toLower (s.drop (s.length - suffix.length)) = toLower suffix

/-- What a C function sees of a string: the bytes up to the first zero. -/
def cStr (s : Text) : Text := s.takeWhile (· ≠ '\x00')

def isSpace (c : Char) : Bool :=
  c = ' ' || c = '\t' || c = '\n' || c = '\x0b' || c = '\x0c' || c = '\r'

/-- `std::stoi`, which throws without a digit and outside the range of `int`. -/
def stoi (s : Text) : Option Int :=
  let unsigned := fun (sign : Int) (s : Text) =>
    let digits := s.takeWhile Char.isDigit
    let number := sign * Nat.ofDigitChars 10 digits 0
    if digits = [] then none
    else if -2147483648 ≤ number ∧ number ≤ 2147483647 then some number
    else none
  match s.dropWhile isSpace with
  | '-' :: rest => unsigned (-1) rest
  | '+' :: rest => unsigned 1 rest
  | rest => unsigned 1 rest

/-- `getaddrinfo` of a host and an optional service: nothing where it fails, else the addresses in the
order of its answer. -/
abbrev Resolver := Text → Option Text → Option (List Address)

def s6Addr (a : BitVec 128) : List Nat := Foundation.PlaceValue.places 256 16 a.toNat

def loop6 : List Nat := [0, 0, 0, 0, 0, 0, 0, 0, 0, 0, 0, 0, 0, 0, 0, 1]

end Scand.Onec.Strings
