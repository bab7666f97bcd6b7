/-
  NetBoot.Net.Address — IPv4 and hardware addresses, and the state flags of the network stack.

  A dotted quad is four runs of decimal digits of value at most 255 with single dots between
  them; a run may be of any length and start with zeros. `Ipv4.parse?` accepts nothing else,
  so a host name is never taken for an address.
-/

import NetBoot.Text.Hex

namespace NetBoot.Net

structure Ipv4 where
  a : UInt8
  b : UInt8
  c : UInt8
  d : UInt8
  deriving DecidableEq, Repr, Ord

namespace Ipv4

def unspecified : Ipv4 := ⟨0, 0, 0, 0⟩

instance : Inhabited Ipv4 := ⟨unspecified⟩

def isUnspecified (ip : Ipv4) : Bool := ip == unspecified

def octets (ip : Ipv4) : List UInt8 := [ip.a, ip.b, ip.c, ip.d]

def text (ip : Ipv4) : String := s!"{ip.a.toNat}.{ip.b.toNat}.{ip.c.toNat}.{ip.d.toNat}"

/-- The value of a run of decimal digits. -/
def decimal (cs : List Char) : Nat := cs.foldl (fun n c => 10 * n + (c.toNat - '0'.toNat)) 0

/-- One part of a dotted quad: a run of digits of value at most 255. -/
def octet? (cs : List Char) : Option UInt8 :=
  if cs ≠ [] ∧ cs.all Char.isDigit ∧ decimal cs ≤ 255 then some (UInt8.ofNat (decimal cs)) else none

def parse? (s : String) : Option Ipv4 :=
  match s.toList.splitOn '.' with
  | [p, q, r, t] => do return ⟨← octet? p, ← octet? q, ← octet? r, ← octet? t⟩
  | _ => none

end Ipv4

/-- A hardware address: six bytes. -/
structure Mac where
  bytes : Vector UInt8 6
  deriving DecidableEq, Repr

namespace Mac

def ofBytes (b : Bytes) : Mac := ⟨Vector.ofFn fun i => b.getD i 0⟩

instance : Inhabited Mac := ⟨ofBytes #[]⟩

def text (m : Mac) : String :=
  ":".intercalate (m.bytes.toList.map fun b => Text.hexPadded 2 b.toNat)

/-- Digits only. -/
def compact (m : Mac) : String := Text.hexOfBytes m.bytes.toList

end Mac

/-- What the network stack has done so far, one bit a fact; other bits are kept. -/
structure PxeMode where
  bits : UInt8
  deriving DecidableEq, Repr

namespace PxeMode

def started : PxeMode := ⟨1⟩
def dhcpAckReceived : PxeMode := ⟨2⟩
def proxyOfferReceived : PxeMode := ⟨4⟩
def pxeReplyReceived : PxeMode := ⟨8⟩

def none : PxeMode := ⟨0⟩

def union (m n : PxeMode) : PxeMode := ⟨m.bits ||| n.bits⟩

def without (m n : PxeMode) : PxeMode := ⟨m.bits &&& ~~~n.bits⟩

def contains (m n : PxeMode) : Bool := m.bits &&& n.bits == n.bits

/-- Did this system start from the network? -/
def isNetboot (m : PxeMode) : Bool := m.contains (started.union dhcpAckReceived)

end PxeMode

end NetBoot.Net
