/-
  NetBoot.Uefi.Protocol — the firmware interfaces that the boot client looks up.
-/

import NetBoot.Guid

namespace NetBoot.Uefi

inductive Protocol where
  | loadedImage
  | devicePath
  | pxeBaseCode
  | simpleNetwork
  | shimLock
  | dnsServiceBinding
  | dns
  deriving DecidableEq, Repr

namespace Protocol

def all : List Protocol :=
  [loadedImage, devicePath, pxeBaseCode, simpleNetwork, shimLock, dnsServiceBinding, dns]

def guid : Protocol → Guid
  | loadedImage => ⟨0x5b1b31a1, 0x9562, 0x11d2, [0x8e, 0x3f, 0x00, 0xa0, 0xc9, 0x69, 0x72, 0x3b]⟩
  | devicePath => ⟨0x09576e91, 0x6d3f, 0x11d2, [0x8e, 0x39, 0x00, 0xa0, 0xc9, 0x69, 0x72, 0x3b]⟩
  | pxeBaseCode => ⟨0x03c4e603, 0xac28, 0x11d3, [0x9a, 0x2d, 0x00, 0x90, 0x27, 0x3f, 0xc1, 0x4d]⟩
  | simpleNetwork => ⟨0xa19832b9, 0xac25, 0x11d3, [0x9a, 0x2d, 0x00, 0x90, 0x27, 0x3f, 0xc1, 0x4d]⟩
  | shimLock => .shimLock
  | dnsServiceBinding => ⟨0xb625b186, 0xe063, 0x44f7, [0x89, 0x05, 0x6a, 0x74, 0xdc, 0x6f, 0x52, 0xb4]⟩
  | dns => ⟨0xae3d28cc, 0xe05b, 0x4fa1, [0xa0, 0x11, 0x7e, 0xb5, 0x5a, 0x3f, 0x14, 0x01]⟩

/-- The interface with this text for its identifier. -/
def ofText? (text : String) : Option Protocol := all.find? (·.guid.text == text)

end Protocol

/-- The tables that the firmware leaves behind. -/
inductive ConfigTable where
  | smbios3
  | smbios
  | other
  deriving DecidableEq, Repr

end NetBoot.Uefi
