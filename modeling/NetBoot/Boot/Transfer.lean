/-
  NetBoot.Boot.Transfer — whole files from a server: its size first, then its contents into a
  buffer of that size.
-/

import NetBoot.Platform
import NetBoot.Boot.Error

namespace NetBoot.Boot.Transfer

variable {m : Type → Type} [Monad m]

private def transferTarget : String := "netchain_pxe::tftp"

/-- Reads a file of known size. -/
def read (net : Network m) (server : Net.Ipv4) (name : String) (size : UInt64) : m (Except BootError Bytes) := do
  if ← net.reserve size.toNat then
    match ← net.receiveFile server name size.toNat with
    | (.error e, _) => do
      net.error transferTarget s!"cannot read {name} from {server.text}: {e.message}"
      return .error (.network e)
    | (.ok count, buffer) => do
      net.debug transferTarget s!"read {name} ({count} bytes) from {server.text}"
      return .ok (buffer.resize (min count size.toNat))
  else return .error (.network .outOfMemory)

def fetch (net : Network m) (server : Net.Ipv4) (name : String) : m (Except BootError Bytes) := do
  match ← net.fileSize server name with
  | .error e => do
    net.debug transferTarget s!"cannot get size of {name} from {server.text}: {e.message}"
    return .error (.network e)
  | .ok size => read net server name size

end NetBoot.Boot.Transfer
