import Mathlib.Data.List.Basic
import Mathlib.Data.Nat.Digits.Defs

/-! Texts of IP addresses, as the standard library of Rust reads and prints them. -/

namespace NoriShell.Net

structure Ipv4Addr where
  one : UInt8
  two : UInt8
  three : UInt8
  four : UInt8
  deriving DecidableEq

structure Ipv6Addr where
  segments : Vector UInt16 8
  deriving DecidableEq

inductive IpAddr where
  | v4 (address : Ipv4Addr)
  | v6 (address : Ipv6Addr)
  deriving DecidableEq

abbrev Reader (α : Type) := List Char → Option (α × List Char)

namespace Reader

variable {α : Type}

def digitValue (c : Char) : Option Nat :=
  if '0' ≤ c ∧ c ≤ '9' then some (c.toNat - '0'.toNat)
  else if 'a' ≤ c ∧ c ≤ 'z' then some (c.toNat - 'a'.toNat + 10)
  else if 'A' ≤ c ∧ c ≤ 'Z' then some (c.toNat - 'A'.toNat + 10)
  else none

def digit (radix : Nat) (c : Char) : Option Nat := (digitValue c).filter (· < radix)

def digits (radix : Nat) : List Char → List Nat × List Char
  | [] => ([], [])
  | c :: cs =>
    match digit radix c with
    | none => ([], c :: cs)
    | some d =>
      let (more, rest) := digits radix cs
      (d :: more, rest)

def number (radix maxDigits : Nat) (allowZeroPrefix : Bool) (max : Nat) : Reader Nat := fun cs =>
  let (ds, rest) := digits radix cs
  let value := ds.foldl (fun value d => value * radix + d) 0
  if ds = [] ∨ ds.length > maxDigits then none
  else if !allowZeroPrefix ∧ ds.head? = some 0 ∧ ds.length > 1 then none
  else if value > max then none
  else some (value, rest)

def givenChar (target : Char) : Reader Unit
  | [] => none
  | c :: cs => if c = target then some ((), cs) else none

def separated (separator : Char) (index : Nat) (inner : Reader α) : Reader α := fun cs =>
  if index = 0 then inner cs else (givenChar separator cs).bind fun (_, cs) => inner cs

def octet (index : Nat) : Reader UInt8 := fun cs =>
  (separated '.' index (number 10 3 false 255) cs).map fun (n, rest) => (.ofNat n, rest)

def ipv4Addr : Reader Ipv4Addr := fun cs => do
  let (one, cs) ← octet 0 cs
  let (two, cs) ← octet 1 cs
  let (three, cs) ← octet 2 cs
  let (four, cs) ← octet 3 cs
  return (⟨one, two, three, four⟩, cs)

def group (index : Nat) : Reader UInt16 := fun cs =>
  (separated ':' index (number 16 4 true 65535) cs).map fun (n, rest) => (.ofNat n, rest)

end Reader

def fromBeBytes (high low : UInt8) : UInt16 := .ofNat (high.toNat * 256 + low.toNat)

def Ipv4Addr.groups (address : Ipv4Addr) : List UInt16 :=
  [fromBeBytes address.one address.two, fromBeBytes address.three address.four]

/-- A chunk of an IPv6 address: its groups, whether an embedded IPv4 address ended it, and what
follows.  An embedded address needs two groups left. -/
def readGroups (limit : Nat) : Nat → Nat → List Char → List UInt16 × Bool × List Char
  | 0, _, cs => ([], false, cs)
  | remaining + 1, index, cs =>
    match if index + 1 < limit then Reader.separated ':' index Reader.ipv4Addr cs else none with
    | some (ipv4, rest) => (ipv4.groups, true, rest)
    | none =>
      match Reader.group index cs with
      | some (group, rest) =>
        let (groups, embedded, rest) := readGroups limit remaining (index + 1) rest
        (group :: groups, embedded, rest)
      | none => ([], false, cs)

def Ipv6Addr.ofGroups (head tail : List UInt16) : Ipv6Addr where
  segments := .ofFn fun i =>
    if 8 - tail.length ≤ i.val then tail.getD (i.val - (8 - tail.length)) 0 else head.getD i.val 0

def Reader.ipv6Addr : Reader Ipv6Addr := fun cs =>
  let (head, embedded, rest) := readGroups 8 8 0 cs
  if head.length = 8 then some (.ofGroups head [], rest)
  -- An IPv4 part is not allowed before `::`.
  else if embedded then none
  else do
    let (_, rest) ← givenChar ':' rest
    let (_, rest) ← givenChar ':' rest
    let limit := 8 - (head.length + 1)
    let (tail, _, rest) := readGroups limit limit 0 rest
    return (.ofGroups head tail, rest)

def parseWith {α : Type} (reader : Reader α) (cs : List Char) : Option α :=
  match reader cs with
  | some (a, []) => some a
  | _ => none

def Ipv6Addr.parse (cs : List Char) : Option Ipv6Addr := parseWith .ipv6Addr cs

/-- What reads as an IPv4 address is not tried as an IPv6 address. -/
def Reader.ipAddr : Reader IpAddr := fun cs =>
  match ipv4Addr cs with
  | some (address, rest) => some (.v4 address, rest)
  | none => (ipv6Addr cs).map fun (address, rest) => (.v6 address, rest)

def IpAddr.parse (cs : List Char) : Option IpAddr := parseWith .ipAddr cs

def decimal (n : Nat) : List Char := Nat.toDigits 10 n

def hexadecimal (segment : UInt16) : List Char := Nat.toDigits 16 segment.toNat

def Ipv4Addr.print (address : Ipv4Addr) : List Char :=
  decimal address.one.toNat ++ '.' :: (decimal address.two.toNat ++ '.' ::
    (decimal address.three.toNat ++ '.' :: decimal address.four.toNat))

structure Span where
  start : Nat := 0
  len : Nat := 0

def Span.extend : Span × Span → UInt16 × Nat → Span × Span
  | (longest, current), (segment, i) =>
    if segment = 0 then
      let current : Span := ⟨if current.len = 0 then i else current.start, current.len + 1⟩
      (if current.len > longest.len then current else longest, current)
    else (longest, {})

def Span.longest (segments : List UInt16) : Span := (segments.zipIdx.foldl Span.extend ({}, {})).1

def fmtSubslice : List UInt16 → List Char
  | [] => []
  | first :: tail => hexadecimal first ++ tail.flatMap fun segment => ':' :: hexadecimal segment

namespace Ipv6Addr

def toIpv4Mapped (address : Ipv6Addr) : Option Ipv4Addr :=
  match address.segments.toList with
  | [0, 0, 0, 0, 0, 0xffff, ab, cd] =>
    some ⟨.ofNat (ab.toNat / 256), .ofNat ab.toNat, .ofNat (cd.toNat / 256), .ofNat cd.toNat⟩
  | _ => none

def print (address : Ipv6Addr) : List Char :=
  match address.toIpv4Mapped with
  | some ipv4 => "::ffff:".toList ++ ipv4.print
  | none =>
    let segments := address.segments.toList
    let zeroes := Span.longest segments
    if zeroes.len > 1 then
      fmtSubslice (segments.take zeroes.start) ++ ':' :: ':' ::
        fmtSubslice (segments.drop (zeroes.start + zeroes.len))
    else fmtSubslice segments

end Ipv6Addr

def IpAddr.print : IpAddr → List Char
  | .v4 address => address.print
  | .v6 address => address.print

end NoriShell.Net
