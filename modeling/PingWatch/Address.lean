import PingWatch.Text.Quoted
import PingWatch.Text.Whole

/-!
# Network addresses and their printed form

An address is a version 4 address of four bytes or a version 6 address of eight groups; an endpoint
adds a port, and in version 6 a scope.  The printed form of a version 6 address leaves out the first
of its longest runs of two or more zero groups, and shows a mapped version 4 address as such.
-/

namespace PingWatch

open Text

structure Ipv4 where
  (a b c d : UInt8)
deriving DecidableEq

structure Ipv6 where
  groups : List UInt16
  eight : groups.length = 8
deriving DecidableEq

inductive Ip
  | v4 (ip : Ipv4)
  | v6 (ip : Ipv6)
deriving DecidableEq

/-- An address with a port. -/
inductive Endpoint
  | v4 (ip : Ipv4) (port : UInt16)
  | v6 (ip : Ipv6) (port : UInt16) (scope : UInt32)
deriving DecidableEq

/-- The version 4 address in the last two groups of a version 6 address. -/
def Ipv4.ofGroups (high low : UInt16) : Ipv4 :=
  ⟨(high >>> 8).toUInt8, high.toUInt8, (low >>> 8).toUInt8, low.toUInt8⟩

/-- The two groups that hold a version 4 address. -/
def Ipv4.groups (ip : Ipv4) : List UInt16 :=
  [ip.a.toUInt16 <<< 8 ||| ip.b.toUInt16, ip.c.toUInt16 <<< 8 ||| ip.d.toUInt16]

def Ipv4.print (ip : Ipv4) : List Char :=
  ['.'].intercalate ([ip.a, ip.b, ip.c, ip.d].map fun n => decimal n.toNat)

namespace Ipv6

/-- The groups as an address, if there are eight. -/
def ofGroups? (groups : List UInt16) : Option Ipv6 :=
  if h : groups.length = 8 then some ⟨groups, h⟩ else none

/-- The version 4 address that a version 6 address maps. -/
def mapped? (ip : Ipv6) : Option Ipv4 :=
  match ip.groups with
  | [0, 0, 0, 0, 0, 0xffff, high, low] => some (.ofGroups high low)
  | _ => none

/-- The number of zero groups at the front. -/
def zerosAhead (gs : List UInt16) : Nat := (gs.takeWhile (· = 0)).length

/-- The first of the longest runs of zero groups: where it begins, counted from `i`, and its
length. -/
def longestZeros (i : Nat) : List UInt16 → Nat × Nat
  | [] => (i, 0)
  | g :: gs =>
    let here := zerosAhead (g :: gs)
    let later := longestZeros (i + 1) gs
    if later.2 ≤ here then (i, here) else later

/-- Groups with colons between them. -/
def printGroups (gs : List UInt16) : List Char :=
  [':'].intercalate (gs.map fun g => hexDigits g.toNat)

def print (ip : Ipv6) : List Char :=
  match ip.mapped? with
  | some v4 => [':', ':', 'f', 'f', 'f', 'f', ':'] ++ v4.print
  | none =>
    let (start, length) := longestZeros 0 ip.groups
    if 1 < length then
      printGroups (ip.groups.take start) ++ ':' :: ':' ::
        printGroups (ip.groups.drop (start + length))
    else printGroups ip.groups

end Ipv6

namespace Ip

def print : Ip → List Char
  | v4 ip => ip.print
  | v6 ip => ip.print

def text (ip : Ip) : String := .ofList ip.print

def atPort (port : UInt16) : Ip → Endpoint
  | v4 ip => .v4 ip port
  | v6 ip => .v6 ip port 0

def isV6 : Ip → Bool
  | v4 _ => false
  | v6 _ => true

end Ip

namespace Endpoint

def ip : Endpoint → Ip
  | v4 ip _ => .v4 ip
  | v6 ip _ _ => .v6 ip

def port : Endpoint → UInt16
  | v4 _ port => port
  | v6 _ port _ => port

/-- The printed form of an endpoint; a scope is shown unless it is zero. -/
def print : Endpoint → List Char
  | v4 ip port => ip.print ++ ':' :: decimal port.toNat
  | v6 ip port scope =>
    let zone := if scope = 0 then [] else '%' :: decimal scope.toNat
    '[' :: ip.print ++ zone ++ ']' :: ':' :: decimal port.toNat

def text (e : Endpoint) : String := .ofList e.print

end Endpoint

end PingWatch
