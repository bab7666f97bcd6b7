/-
  NetBoot.Guid — the 128-bit identifiers that name firmware protocols, tables and variable
  vendors, and their text.
-/

import NetBoot.Text.Hex

namespace NetBoot

structure Guid where
  data1 : UInt32
  data2 : UInt16
  data3 : UInt16
  /-- Eight bytes. -/
  data4 : List UInt8
  deriving DecidableEq, Repr

namespace Guid

/-- Vendor of the variables that the firmware itself defines. -/
def globalVariable : Guid :=
  ⟨0x8be4df61, 0x93ca, 0x11d2, [0xaa, 0x0d, 0x00, 0xe0, 0x98, 0x03, 0x2b, 0x8c]⟩

/-- The image verifier of shim. -/
def shimLock : Guid :=
  ⟨0x605dab50, 0xe046, 0x4300, [0xab, 0xb6, 0x3d, 0xd8, 0x10, 0xdd, 0x8b, 0x23]⟩

def text (g : Guid) : String :=
  "-".intercalate
    [Text.hexPadded 8 g.data1.toNat, Text.hexPadded 4 g.data2.toNat, Text.hexPadded 4 g.data3.toNat,
      Text.hexOfBytes (g.data4.take 2), Text.hexOfBytes (g.data4.drop 2)]

def describe (g : Guid) : String := s!"Guid({g.text})"

end Guid

end NetBoot
