import PingWatch.Address
import PingWatch.Text.Blank

/-!
# Reading network addresses

A reader takes something off the front of a text and returns what is left.  Octets have up to three
decimal digits and no leading zero; groups have up to four hexadecimal ones; the last two groups of
an address may be written as a version 4 address; two colons stand for at least one zero group.
-/

namespace PingWatch

open Text

/-- Takes something off the front of a text. -/
abbrev Reader (α : Type) := List Char → Option (α × List Char)

namespace Reader

/-- The value of a digit in a base of up to sixteen. -/
def digitIn? (base : Nat) (c : Char) : Option Nat :=
  let value :=
    if 48 ≤ c.toNat ∧ c.toNat ≤ 57 then some (c.toNat - 48)
    else if 97 ≤ c.toNat ∧ c.toNat ≤ 102 then some (c.toNat - 87)
    else if 65 ≤ c.toNat ∧ c.toNat ≤ 70 then some (c.toNat - 55)
    else none
  value.filter (· < base)

/-- The digits at the front of a text, and what follows them. -/
def digits (base : Nat) : List Char → List Nat × List Char
  | [] => ([], [])
  | c :: cs =>
    match digitIn? base c with
    | some d =>
      let (ds, rest) := digits base cs
      (d :: ds, rest)
    | none => ([], c :: cs)

def value (base : Nat) (ds : List Nat) : Nat := ds.foldl (fun n d => base * n + d) 0

def octet : Reader UInt8 := fun cs =>
  let (ds, rest) := digits 10 cs
  let leading := ds.head? = some 0 ∧ 1 < ds.length
  if ds = [] ∨ 3 < ds.length ∨ leading ∨ 255 < value 10 ds then none
  else some ((value 10 ds).toUInt8, rest)

def group : Reader UInt16 := fun cs =>
  let (ds, rest) := digits 16 cs
  if ds = [] ∨ 4 < ds.length then none else some ((value 16 ds).toUInt16, rest)

/-- A decimal number up to `bound`; leading zeros do not matter. -/
def number (bound : Nat) : Reader Nat := fun cs =>
  let (ds, rest) := digits 10 cs
  if ds = [] ∨ bound < value 10 ds then none else some (value 10 ds, rest)

def char (c : Char) : Reader Unit
  | d :: cs => if d = c then some ((), cs) else none
  | [] => none

/-- `read` behind a separator, unless it is the first one. -/
def separated {α : Type} (sep : Char) (first : Bool) (read : Reader α) : Reader α := fun cs =>
  if first then read cs else (char sep cs).bind fun (_, cs) => read cs

def ipv4 : Reader Ipv4 := fun cs => do
  let (a, cs) ← octet cs
  let (_, cs) ← char '.' cs
  let (b, cs) ← octet cs
  let (_, cs) ← char '.' cs
  let (c, cs) ← octet cs
  let (_, cs) ← char '.' cs
  let (d, cs) ← octet cs
  return (⟨a, b, c, d⟩, cs)

/-- Up to `limit` groups, the last two perhaps as a version 4 address: the groups, whether they end
in such an address, and what follows them. -/
def groups : Nat → Bool → List Char → List UInt16 × Bool × List Char
  | 0, _, cs => ([], false, cs)
  | left + 1, first, cs =>
    match if 0 < left then separated ':' first ipv4 cs else none with
    | some (ip, rest) => (ip.groups, true, rest)
    | none =>
      match separated ':' first group cs with
      | some (g, rest) =>
        let (gs, mixed, rest) := groups left false rest
        (g :: gs, mixed, rest)
      | none => ([], false, cs)

def ipv6 : Reader Ipv6 := fun cs =>
  let (front, mixed, rest) := groups 8 true cs
  if front.length = 8 then (Ipv6.ofGroups? front).map (·, rest)
  else if mixed then none
  else do
    let (_, rest) ← char ':' rest
    let (_, rest) ← char ':' rest
    let (back, _, rest) := groups (7 - front.length) true rest
    let zeros := List.replicate (8 - front.length - back.length) 0
    (Ipv6.ofGroups? (front ++ zeros ++ back)).map (·, rest)

def ip : Reader Ip := fun cs =>
  match ipv4 cs with
  | some (a, rest) => some (.v4 a, rest)
  | none => (ipv6 cs).map fun (a, rest) => (.v6 a, rest)

def port : Reader UInt16 := fun cs => do
  let (_, cs) ← char ':' cs
  let (n, cs) ← number 65535 cs
  return (n.toUInt16, cs)

/-- A scope behind a percent sign; without one the scope is zero. -/
def scope (cs : List Char) : UInt32 × List Char :=
  match (char '%' cs).bind fun (_, cs) => number 0xFFFFFFFF cs with
  | some (n, rest) => (n.toUInt32, rest)
  | none => (0, cs)

def endpointV4 : Reader Endpoint := fun cs => do
  let (a, cs) ← ipv4 cs
  let (p, cs) ← port cs
  return (.v4 a p, cs)

/-- An endpoint of version 6, whose address stands in brackets. -/
def endpointV6 : Reader Endpoint := fun cs => do
  let (_, cs) ← char '[' cs
  let (a, cs) ← ipv6 cs
  let (s, cs) := scope cs
  let (_, cs) ← char ']' cs
  let (p, cs) ← port cs
  return (.v6 a p s, cs)

def endpoint : Reader Endpoint := fun cs => (endpointV4 cs).or (endpointV6 cs)

/-- Reads the whole text. -/
def whole {α : Type} (read : Reader α) (cs : List Char) : Option α :=
  match read cs with
  | some (a, []) => some a
  | _ => none

end Reader

def Ip.parse? (s : String) : Option Ip := Reader.whole .ip s.toList

/-- The port at which name servers answer. -/
def lookupPort : UInt16 := 53

/-- Reads the endpoint of a name server: an address, which stands for its usual port, or an address
with a port. -/
def Endpoint.parseServer? (s : String) : Option Endpoint :=
  let cs := trim s.toList
  match Reader.whole .ip cs with
  | some ip => some (ip.atPort lookupPort)
  | none => Reader.whole .endpoint cs

end PingWatch
