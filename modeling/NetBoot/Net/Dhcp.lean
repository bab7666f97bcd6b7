/-
  NetBoot.Net.Dhcp — the options of a DHCP packet.

  Options follow the fixed header and the magic cookie, each a code, a length and that many
  bytes; code 0 is a single byte of padding and code 255 ends the list. An option that runs past
  the packet ends it too.
-/

import NetBoot.Bytes

namespace NetBoot.Net.Dhcp

/-- Where the options start. -/
def optionsOffset : Nat := 240

def padCode : UInt8 := 0

def endCode : UInt8 := 255

/-- The client's system architecture. -/
def architectureCode : UInt8 := 93

structure Field where
  code : UInt8
  value : List UInt8
  deriving DecidableEq, Repr

/-- The options in an option area. -/
def decode : List UInt8 → List Field
  | [] => []
  | code :: rest =>
    if code = endCode then []
    else if code = padCode then decode rest
    else match rest with
      | [] => []
      | len :: body =>
        if body.length < len.toNat then []
        else ⟨code, body.take len.toNat⟩ :: decode (body.drop len.toNat)
termination_by bs => bs.length
decreasing_by
  · simp only [List.length_cons]; omega
  · simp only [List.length_drop, List.length_cons]; omega

/-- The options of a packet. -/
def options (packet : Bytes) : List Field := decode (packet.toList.drop optionsOffset)

/-- The value of the first option with this code. -/
def find? (packet : Bytes) (code : UInt8) : Option (List UInt8) :=
  ((options packet).find? (·.code == code)).map (·.value)

/-- The client's architecture: a big-endian number of two bytes. -/
def architecture? (packet : Bytes) : Option UInt16 :=
  match find? packet architectureCode with
  | some [hi, lo] => some (UInt16.ofNat (256 * hi.toNat + lo.toNat))
  | _ => none

end NetBoot.Net.Dhcp
