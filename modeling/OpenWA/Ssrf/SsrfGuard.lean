import OpenWA.Ssrf.Literal

/-!
This module contains the classification of an IP literal that an outbound request must not reach.
-/

namespace OpenWA.Ssrf

open Js

def blockedV4Ranges : List (String × Nat) :=
  [("0.0.0.0", 8), -- "this" network / unspecified
   ("10.0.0.0", 8), -- RFC1918 private
   ("100.64.0.0", 10), -- CGNAT
   ("127.0.0.0", 8), -- loopback
   ("169.254.0.0", 16), -- link-local
   ("172.16.0.0", 12), -- RFC1918 private
   ("192.0.0.0", 24), -- IETF protocol assignments
   ("192.168.0.0", 16), -- RFC1918 private
   ("198.18.0.0", 15), -- benchmarking
   ("224.0.0.0", 4), -- multicast
   ("240.0.0.0", 4)] -- reserved

def blockedV6Ranges : List (String × Nat) :=
  [("::", 128), -- unspecified
   ("::1", 128), -- loopback
   ("0000::", 3), -- reserved by IETF
   ("fc00::", 7), -- ULA
   ("fe80::", 10), -- link-local
   ("fec0::", 10)] -- deprecated site-local

def blockedV4 : BlockList := ofRanges readIPv4 blockedV4Ranges

def blockedV6 : BlockList := ofRanges (fun t => (readIPv6 t).map addressValue) blockedV6Ranges

def globalUnicastV6 : BlockList :=
  ofRanges (fun t => (readIPv6 t).map addressValue) [("2000::", 3)]

/-- `check(ip, 'ipv4')` -/
def BlockList.checkV4 (rules : BlockList) (ip : Text) : Bool :=
  match readIPv4 ip with
  | some v => rules.member 32 v
  | none => false

/-- `check(ip, 'ipv6')` -/
def BlockList.checkV6 (rules : BlockList) (ip : Text) : Bool :=
  match readIPv6 ip with
  | some hs => rules.member 128 (addressValue hs)
  | none => false

/-- Two hextets as a dotted quad. -/
def hextetsToV4 (hi lo : Nat) : Text :=
  Nat.toDigits 10 ((hi >>> 8) &&& 0xff) ++ '.' :: Nat.toDigits 10 (hi &&& 0xff) ++
    '.' :: Nat.toDigits 10 ((lo >>> 8) &&& 0xff) ++ '.' :: Nat.toDigits 10 (lo &&& 0xff)

/-- `/^\d{1,3}(\.\d{1,3}){3}$/` -/
def isDottedQuad (t : Text) : Bool :=
  (t.splitOn '.').length = 4 &&
    (t.splitOn '.').all fun p => 1 ≤ p.length && p.length ≤ 3 && p.all Char.isDigit

/--
`s.match(/(\d{1,3})\.(\d{1,3})\.(\d{1,3})\.(\d{1,3})$/)`, whose leftmost match is wanted: what
precedes it and its groups.
-/
def matchDotted (s : Text) : Option (Text × List Text) :=
  match s with
  | [] => none
  | c :: rest =>
    if isDottedQuad s then some ([], s.splitOn '.')
    else (matchDotted rest).map fun found => (c :: found.1, found.2)

/-- `s.split('::')` -/
def splitPair (s : Text) : List Text :=
  match s with
  | ':' :: ':' :: rest => [] :: splitPair rest
  | c :: rest =>
    match splitPair rest with
    | [] => [[c]]
    | p :: ps => (c :: p) :: ps
  | [] => [[]]

/-- `/^[0-9a-f]{1,4}$/` -/
def isLowerGroup (p : Text) : Bool :=
  1 ≤ p.length && p.length ≤ 4 && p.all fun c => c.isDigit || ('a' ≤ c && c ≤ 'f')

/-- A trailing dotted quad folded into two hexadecimal groups; `none` for an octet over 255. -/
def foldDotted (lower : Text) : Option Text :=
  match matchDotted lower with
  | none => some lower
  | some (before, groups) =>
    match groups.map digitsValue with
    | [a, b, c, d] =>
      if [a, b, c, d].any (· > 255) then none
      else
        some (before ++ Nat.toDigits 16 ((a <<< 8) ||| b) ++
          ':' :: Nat.toDigits 16 ((c <<< 8) ||| d))
    | _ => none

/-- `half ? half.split(':') : []` -/
def splitHalf (half : Text) : List Text :=
  if half.isEmpty then [] else half.splitOn ':'

def parseParts (parts : List Text) : Option (List Nat) :=
  if parts.length ≠ 8 then none
  else parts.mapM fun h => if isLowerGroup h then some (hexValue h) else none

def expandIPv6 (lower : Text) : Option (List Nat) :=
  match foldDotted lower with
  | none => none
  | some s =>
    match splitPair s with
    | [only] =>
      let head := splitHalf only
      if head.length ≠ 8 then none else parseParts head
    | [first, second] =>
      let head := splitHalf first
      let tail := splitHalf second
      let gap : Int := 8 - head.length - tail.length
      if gap < 1 then none
      else parseParts (head ++ List.replicate gap.toNat ['0'] ++ tail)
    | _ => none

/-- The tests for an embedded IPv4 address, in the order of the source. -/
def embeddedV4 (hextets : List Nat) : Option (Nat × Nat) :=
  let at' i := hextets.getD i 0
  if at' 0 = 0x2002 then some (at' 1, at' 2) -- 6to4
  else if at' 0 = 0x64 && at' 1 = 0xff9b then some (at' 6, at' 7) -- NAT64
  else if (hextets.take 6).all (· = 0) && at' 6 ||| at' 7 ≠ 0 then some (at' 6, at' 7)
  else if at' 0 = 0 && at' 1 = 0 && at' 2 = 0 && at' 3 = 0 && at' 4 = 0xffff && at' 5 = 0 then
    some (at' 6, at' 7) -- IPv4-translatable
  else if at' 0 = 0 && at' 1 = 0 && at' 2 = 0 && at' 3 = 0 && at' 4 = 0 && at' 5 = 0xffff then
    some (at' 6, at' 7) -- fully expanded IPv4-mapped
  else none

/-- The `::ffff:` fast path: the text of the embedded address, where the tail has one of its forms. -/
def mappedTail (lower : Text) : Option Text :=
  if "::ffff:".toList.isPrefixOf lower then
    let tail := lower.drop "::ffff:".length
    if isDottedQuad tail then some tail
    else
      match tail.splitOn ':' with
      | [h, l] =>
        if isLowerGroup h && isLowerGroup l then some (hextetsToV4 (hexValue h) (hexValue l))
        else none
      | _ => none
  else none

/-- The body of `isBlockedAddress`; `self` is its recursive call. -/
def isBlockedAddressBody (self : Text → Bool) (ip : Text) : Bool :=
  if isIPv4 ip then blockedV4.checkV4 ip
  else if isIPv6 ip then
    let lower := ip.map Char.toLower
    match mappedTail lower with
    | some v4 => self v4
    | none =>
      match (expandIPv6 lower).bind embeddedV4 with
      | some (hi, lo) => self (hextetsToV4 hi lo)
      | none => blockedV6.checkV6 lower || !globalUnicastV6.checkV6 lower
  else
    -- not a valid IP literal, it cannot be verified
    true

/-- The recursion ends with the embedded address, which has no `:` (`isBlockedAddress_eq`). -/
def isBlockedAddress (ip : Text) : Bool :=
  isBlockedAddressBody (isBlockedAddressBody fun _ => true) ip

example : isBlockedAddress "::ffff:10.0.0.1".toList = true := by decide +kernel

end OpenWA.Ssrf
