import OpenWA.Js.Text

/-!
This module contains the textual forms of IP addresses as the `net` module of the platform reads them,
and the membership test of its `BlockList`.
-/

namespace OpenWA.Ssrf

open Js

def isHexDigit (c : Char) : Bool :=
  c.isDigit || ('a' ≤ c && c ≤ 'f') || ('A' ≤ c && c ≤ 'F')

def hexDigitValue (c : Char) : Nat :=
  if c.isDigit then c.toNat - '0'.toNat
  else if 'a' ≤ c then c.toNat - 'a'.toNat + 10
  else c.toNat - 'A'.toNat + 10

/-- `parseInt(t, 16)` of hexadecimal digits -/
def hexValue (t : Text) : Nat := t.foldl (fun n c => 16 * n + hexDigitValue c) 0

/-- A decimal number up to 255 without a leading zero. -/
def readOctet (p : Text) : Option Nat :=
  match p with
  | [] => none
  | c :: rest =>
    if p.all Char.isDigit && p.length ≤ 3 && (c ≠ '0' || rest.isEmpty) && digitsValue p ≤ 255 then
      some (digitsValue p)
    else
      none

/-- The 32-bit value of a dotted quad. -/
def readIPv4 (t : Text) : Option Nat :=
  match (t.splitOn '.').mapM readOctet with
  | some [a, b, c, d] => some (((a * 256 + b) * 256 + c) * 256 + d)
  | _ => none

def isIPv4 (t : Text) : Bool := (readIPv4 t).isSome

/-- One to four hexadecimal digits. -/
def readGroup (p : Text) : Option Nat :=
  if 1 ≤ p.length && p.length ≤ 4 && p.all isHexDigit then some (hexValue p) else none

def readGroups (t : Text) : Option (List Nat) :=
  if t.isEmpty then some [] else (t.splitOn ':').mapM readGroup

/-- Fields of which the last one may be a dotted quad, which stands for two groups. -/
def readFields (ps : List Text) : Option (List Nat) :=
  match ps with
  | [] => some []
  | [p] =>
    match readGroup p with
    | some g => some [g]
    | none => (readIPv4 p).map fun a => [a / 65536, a % 65536]
  | p :: ps =>
    match readGroup p, readFields ps with
    | some g, some gs => some (g :: gs)
    | _, _ => none

def readLast (t : Text) : Option (List Nat) :=
  if t.isEmpty then some [] else readFields (t.splitOn ':')

/-- What is before and after the first `::`. -/
def cut (t : Text) : Text × Option Text :=
  match t with
  | ':' :: ':' :: rest => ([], some rest)
  | c :: rest => (c :: (cut rest).1, (cut rest).2)
  | [] => ([], none)

/-- The eight hextets of an address: all of them are written out, or one `::` stands for the zeros. -/
def readAddress (t : Text) : Option (List Nat) :=
  match cut t with
  | (whole, none) => (readLast whole).filter fun hs => hs.length = 8
  | (before, some after) =>
    match readGroups before, readLast after with
    | some head, some tail =>
      if head.length + tail.length ≤ 7 then
        some (head ++ List.replicate (8 - head.length - tail.length) 0 ++ tail)
      else
        none
    | _, _ => none

def isZoneChar (c : Char) : Bool := c.isAlphanum || c = '-' || c = '.' || c = ':'

/-- An address, which a zone may follow. -/
def readIPv6 (t : Text) : Option (List Nat) :=
  match t.dropWhile (· ≠ '%') with
  | [] => readAddress t
  | _ :: zone =>
    if !zone.isEmpty && zone.all isZoneChar then readAddress (t.takeWhile (· ≠ '%')) else none

def isIPv6 (t : Text) : Bool := (readIPv6 t).isSome

example : (["1::2::3", ":1", "1:2:3:4:5:6:7:8:9", "1:2:3:4:5:6:7:8::", "::01.2.3.4", "::1%"].all
    fun t => !isIPv6 t.toList) = true := by decide

/-- The 128-bit value of eight hextets. -/
def addressValue (hs : List Nat) : Nat := hs.foldl (fun n h => 65536 * n + h) 0

/-- `v` and `subnet`, addresses of `width` bits, agree in their first `len` bits. -/
def inSubnet (width v subnet len : Nat) : Bool :=
  v / 2 ^ (width - len) = subnet / 2 ^ (width - len)

/-- The rules of a `BlockList` of one family: a network address and a prefix length. -/
abbrev BlockList := List (Nat × Nat)

/-- `addSubnet` for every range of a table -/
def ofRanges (read : Text → Option Nat) (ranges : List (String × Nat)) : BlockList :=
  ranges.filterMap fun range => (read range.1.toList).map fun subnet => (subnet, range.2)

/-- `check` for an address that was read already -/
def BlockList.member (rules : BlockList) (width v : Nat) : Bool :=
  rules.any fun rule => inSubnet width v rule.1 rule.2

end OpenWA.Ssrf
