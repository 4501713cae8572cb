/-! Socket addresses, and how they are written. -/

namespace DatagramStream

inductive IpAddress where
  | v4 (octets : Vector UInt8 4)
  | v6 (groups : Vector UInt16 8) (scope : UInt32)
  deriving DecidableEq

structure SocketAddress where
  ip : IpAddress
  portNumber : UInt16
  deriving DecidableEq

namespace SocketAddress

def ipv4 (a b c d : UInt8) (portNumber : UInt16) : SocketAddress :=
  ⟨.v4 #v[a, b, c, d], portNumber⟩

def loopback (portNumber : UInt16) : SocketAddress :=
  ipv4 127 0 0 1 portNumber

/-! Each reader takes what it can from the front of a text, and gives back the rest. -/

def readChar (c : Char) : List Char → Option (List Char)
  | d :: rest => if c = d then some rest else none
  | [] => none

def digit? (base : Nat) (c : Char) : Option Nat :=
  let value :=
    if '0' ≤ c ∧ c ≤ '9' then c.toNat - '0'.toNat
    else if 'a' ≤ c ∧ c ≤ 'z' then c.toNat - 'a'.toNat + 10
    else if 'A' ≤ c ∧ c ≤ 'Z' then c.toNat - 'A'.toNat + 10
    else base
  if value < base then some value else none

def readNumber (base bound : Nat) (text : List Char) : Option (Nat × List Char) :=
  let digits := text.takeWhile fun c => (digit? base c).isSome
  let n := (digits.filterMap (digit? base)).foldl (base * · + ·) 0
  if digits.isEmpty ∨ bound < n then none else some (n, text.drop digits.length)

def readOctet (text : List Char) : Option (UInt8 × List Char) := do
  let digits := text.takeWhile Char.isDigit
  let (n, rest) ← readNumber 10 255 text
  if 3 < digits.length ∨ (digits.head? = some '0' ∧ 1 < digits.length) then none
  else some (UInt8.ofNat n, rest)

def readGroup (text : List Char) : Option (UInt16 × List Char) := do
  let digits := text.takeWhile fun c => (digit? 16 c).isSome
  let (n, rest) ← readNumber 16 0xffff text
  if 4 < digits.length then none else some (UInt16.ofNat n, rest)

def readPort (text : List Char) : Option (UInt16 × List Char) := do
  let rest ← readChar ':' text
  let (n, rest) ← readNumber 10 0xffff rest
  some (UInt16.ofNat n, rest)

def readV4 (text : List Char) : Option (Vector UInt8 4 × List Char) := do
  let (a, text) ← readOctet text
  let (b, text) ← readChar '.' text >>= readOctet
  let (c, text) ← readChar '.' text >>= readOctet
  let (d, text) ← readChar '.' text >>= readOctet
  some (#v[a, b, c, d], text)

def groupsOfV4 (o : Vector UInt8 4) : List UInt16 :=
  [o[0].toUInt16 <<< 8 ||| o[1].toUInt16, o[2].toUInt16 <<< 8 ||| o[3].toUInt16]

def readGroups : (limit : Nat) → (isFirst : Bool) → List Char → List UInt16 × Bool × List Char
  | 0, _, text => ([], false, text)
  | limit + 1, isFirst, text =>
    match if isFirst then some text else readChar ':' text with
    | none => ([], false, text)
    | some inner =>
      match if limit = 0 then none else readV4 inner with
      | some (octets, rest) => (groupsOfV4 octets, true, rest)
      | none =>
        match readGroup inner with
        | none => ([], false, text)
        | some (group, rest) =>
          let (groups, octets, rest) := readGroups limit false rest
          (group :: groups, octets, rest)

def ofGroups (groups : List UInt16) : Vector UInt16 8 :=
  .ofFn fun i => groups.getD i 0

def readV6 (text : List Char) : Option (Vector UInt16 8 × List Char) := do
  let (front, octets, rest) := readGroups 8 true text
  if front.length = 8 then some (ofGroups front, rest)
  else if octets then none
  else
    let rest ← readChar ':' rest >>= readChar ':'
    let (back, _, rest) := readGroups (7 - front.length) true rest
    let gap := List.replicate (8 - front.length - back.length) 0
    some (ofGroups (front ++ gap ++ back), rest)

def readScope (text : List Char) : Option (UInt32 × List Char) := do
  let rest ← readChar '%' text
  let (n, rest) ← readNumber 10 0xffffffff rest
  some (UInt32.ofNat n, rest)

def readSocketV4 (text : List Char) : Option (SocketAddress × List Char) := do
  let (octets, rest) ← readV4 text
  let (portNumber, rest) ← readPort rest
  some (⟨.v4 octets, portNumber⟩, rest)

def readSocketV6 (text : List Char) : Option (SocketAddress × List Char) := do
  let rest ← readChar '[' text
  let (groups, rest) ← readV6 rest
  let (scope, rest) := (readScope rest).getD (0, rest)
  let rest ← readChar ']' rest
  let (portNumber, rest) ← readPort rest
  some (⟨.v6 groups scope, portNumber⟩, rest)

def parse? (text : String) : Option SocketAddress :=
  match (readSocketV4 text.toList).or (readSocketV6 text.toList) with
  | some (address, []) => some address
  | _ => none

end SocketAddress

end DatagramStream
