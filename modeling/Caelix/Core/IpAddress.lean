import Mathlib.Data.List.Basic

/-!
# IP addresses and their text

`std::net::IpAddr`, its parser and its display. The parser reads from the front of the text
and is given a whole field: what is left over makes it fail. In the text of an IPv6 address
`::` stands for a run of zero groups, and the last two groups may be written as an IPv4
address.
-/

namespace Caelix

structure Ipv4Addr where
  octets : Vector UInt8 4
  deriving DecidableEq

structure Ipv6Addr where
  segments : Vector UInt16 8
  deriving DecidableEq

inductive IpAddr where
  | v4 (address : Ipv4Addr)
  | v6 (address : Ipv6Addr)
  deriving DecidableEq

namespace IpAddr

/-! ## Parsing -/

/-- A reader of the front of a text: the value read and the rest of the text. -/
abbrev Reader (α : Type) := List Char → Option (α × List Char)

/-- `char::to_digit`, for a radix of at most 16. -/
def toDigit (radix : Nat) (c : Char) : Option Nat :=
  let digit :=
    if '0' ≤ c ∧ c ≤ '9' then c.toNat - '0'.toNat
    else if 'a' ≤ c ∧ c ≤ 'f' then c.toNat - 'a'.toNat + 10
    else if 'A' ≤ c ∧ c ≤ 'F' then c.toNat - 'A'.toNat + 10
    else radix
  if digit < radix then some digit else none

def isDigit (radix : Nat) (c : Char) : Bool := (toDigit radix c).isSome

def numberOf (radix : Nat) (digits : List Char) : Nat :=
  digits.foldl (fun result c => result * radix + (toDigit radix c).getD 0) 0

/-- `read_number`, for a type that holds the numbers below `bound`. -/
def readNumber (radix maxDigits bound : Nat) (allowZeroPrefix : Bool) : Reader Nat := fun s =>
  let digits := s.takeWhile (isDigit radix)
  if maxDigits < digits.length then none
  else if digits.length = 0 then none
  else if !allowZeroPrefix && s.head? = some '0' && 1 < digits.length then none
  else if numberOf radix digits < bound then some (numberOf radix digits, s.drop digits.length)
  else none

def readGivenChar (target : Char) : List Char → Option (List Char)
  | [] => none
  | c :: s => if c = target then some s else none

/-- `read_separator`: a separator stands before every part but the first. -/
def readSeparator {α : Type} (sep : Char) (index : Nat) (inner : Reader α) : Reader α := fun s =>
  if 0 < index then (readGivenChar sep s).bind inner else inner s

/-- A number of an IPv4 address; a leading zero is not allowed. -/
def readOctet : Reader UInt8 := fun s =>
  (readNumber 10 3 256 false s).map fun x => (UInt8.ofNat x.1, x.2)

def readIpv4Addr : Reader Ipv4Addr := fun s => do
  let (a, s) ← readSeparator '.' 0 readOctet s
  let (b, s) ← readSeparator '.' 1 readOctet s
  let (c, s) ← readSeparator '.' 2 readOctet s
  let (d, s) ← readSeparator '.' 3 readOctet s
  some (⟨#v[a, b, c, d]⟩, s)

/-- `u16::from_be_bytes`. -/
def fromBeBytes (high low : UInt8) : UInt16 := UInt16.ofNat (high.toNat * 256 + low.toNat)

def readGroup : Reader UInt16 := fun s =>
  (readNumber 16 4 65536 true s).map fun x => (UInt16.ofNat x.1, x.2)

/-- The groups read by `read_groups`, and whether an IPv4 address was among them. -/
structure Groups where
  groups : List UInt16
  ipv4 : Bool
  rest : List Char

/-- The loop of `read_groups` from one index on; `left` groups may still be read. -/
def readGroups : Nat → Nat → List Char → Groups
  | 0, _, s => ⟨[], false, s⟩
  | left + 1, index, s =>
    -- An embedded IPv4 address takes the place of two groups.
    match if 0 < left then readSeparator ':' index readIpv4Addr s else none with
    | some (address, s) =>
      let octets := address.octets
      ⟨[fromBeBytes octets[0] octets[1], fromBeBytes octets[2] octets[3]], true, s⟩
    | none =>
      match readSeparator ':' index readGroup s with
      | none => ⟨[], false, s⟩
      | some (group, s) =>
        let x := readGroups left (index + 1) s
        { x with groups := group :: x.groups }

/-- The head of an address, zeros, and its tail at the end. -/
def Ipv6Addr.ofParts (head tail : List UInt16) : Ipv6Addr :=
  ⟨Vector.ofFn fun i =>
    if i.val < head.length then head.getD i.val 0
    else if 8 - tail.length ≤ i.val then tail.getD (i.val - (8 - tail.length)) 0
    else 0⟩

def readIpv6Addr : Reader Ipv6Addr := fun s =>
  let head := readGroups 8 0 s
  if head.groups.length = 8 then some (Ipv6Addr.ofParts head.groups [], head.rest)
  else if head.ipv4 then none
  else do
    let s ← readGivenChar ':' head.rest
    let s ← readGivenChar ':' s
    let tail := readGroups (8 - (head.groups.length + 1)) 0 s
    some (Ipv6Addr.ofParts head.groups tail.groups, tail.rest)

def readIpAddr : Reader IpAddr := fun s =>
  ((readIpv4Addr s).map fun x => (v4 x.1, x.2)).or ((readIpv6Addr s).map fun x => (v6 x.1, x.2))

/-- `str::parse::<IpAddr>`; `none` is the error, which says nothing more. -/
def parse (s : List Char) : Option IpAddr :=
  match readIpAddr s with
  | some (address, []) => some address
  | _ => none

/-! ## Display -/

def Ipv4Addr.display (address : Ipv4Addr) : String :=
  ".".intercalate (address.octets.toList.map fun octet => Nat.repr octet.toNat)

/-- `to_ipv4_mapped`. -/
def Ipv6Addr.toIpv4Mapped (address : Ipv6Addr) : Option Ipv4Addr :=
  let segments := address.segments
  if segments.toList.take 6 = [0, 0, 0, 0, 0, 0xffff] then
    let bytes (segment : UInt16) := (segment.toNat / 256, segment.toNat % 256)
    let (a, b) := bytes segments[6]
    let (c, d) := bytes segments[7]
    some ⟨#v[UInt8.ofNat a, UInt8.ofNat b, UInt8.ofNat c, UInt8.ofNat d]⟩
  else none

/-- A run of zero groups. -/
structure Span where
  start : Nat
  len : Nat
  deriving DecidableEq

/-- The loop that looks for the longest run of zeros, the first one of several. -/
def longestZeroes (longest current : Span) : Nat → List UInt16 → Span
  | _, [] => longest
  | i, segment :: segments =>
    if segment = 0 then
      let current : Span := ⟨if current.len = 0 then i else current.start, current.len + 1⟩
      longestZeroes (if longest.len < current.len then current else longest) current (i + 1) segments
    else longestZeroes longest ⟨0, 0⟩ (i + 1) segments

/-- Lower-case hexadecimal groups with colons between them. -/
def fmtSubslice (chunk : List UInt16) : String :=
  ":".intercalate (chunk.map fun segment => String.ofList (Nat.toDigits 16 segment.toNat))

def Ipv6Addr.display (address : Ipv6Addr) : String :=
  match Ipv6Addr.toIpv4Mapped address with
  | some ipv4 => "::ffff:" ++ Ipv4Addr.display ipv4
  | none =>
    let segments := address.segments.toList
    let zeroes := longestZeroes ⟨0, 0⟩ ⟨0, 0⟩ 0 segments
    if 1 < zeroes.len then
      fmtSubslice (segments.take zeroes.start) ++ "::" ++
        fmtSubslice (segments.drop (zeroes.start + zeroes.len))
    else fmtSubslice segments

def display : IpAddr → String
  | v4 address => Ipv4Addr.display address
  | v6 address => Ipv6Addr.display address

example : (parse "2001:DB8::7".toList).map display = some "2001:db8::7" := by decide +kernel

example : parse "10.0.0.01".toList = none := by decide +kernel

end IpAddr

end Caelix
