/-
  NetBoot.Net.PxePacket — what the firmware's network boot stack remembers: the DHCP packets it
  has sent and received, and which of them are valid.

  A later stage of the boot takes boot file and boot server from these packets. `BaseCodeMode.redirect`
  makes it find another file and server: the acknowledgement gets them, and offers that would win
  over it are withdrawn.
-/

import NetBoot.Bytes
import NetBoot.Status
import NetBoot.Log
import NetBoot.Net.Address

namespace NetBoot.Net

/-- A DHCP packet in the stack's buffer. -/
structure PxePacket where
  raw : Bytes
  size_raw : raw.size = 1472
  deriving DecidableEq, Repr

namespace PxePacket

/-- Bytes of the buffer. -/
def size : Nat := 1472

/-- Where the address of the boot server stands. -/
def serverOffset : Nat := 20

/-- Where the name of the boot file stands. -/
def fileOffset : Nat := 108

/-- The bytes that hold the name. -/
def fileLength : Nat := 128

/-- The packet with these bytes in front and zeros behind them. -/
def ofBytes (b : Bytes) : PxePacket where
  raw := (Bytes.zeros size).overwrite 0 b
  size_raw := by simp [Bytes.zeros, size]

instance : Inhabited PxePacket := ⟨ofBytes #[]⟩

/-- The packet with some bytes written over. -/
def put (p : PxePacket) (pos : Nat) (b : Bytes) : PxePacket where
  raw := p.raw.overwrite pos b
  size_raw := by simp [p.size_raw]

def server (p : PxePacket) : Ipv4 :=
  ⟨p.raw.getD 20 0, p.raw.getD 21 0, p.raw.getD 22 0, p.raw.getD 23 0⟩

def withServer (p : PxePacket) (server : Ipv4) : PxePacket := p.put serverOffset server.octets.toArray

/-- The name of the boot file, up to the first zero byte. -/
def file (p : PxePacket) : Bytes := Bytes.untilNul (p.raw.extract fileOffset (fileOffset + fileLength))

/-- The packet with another boot file, whose name is cut to the field. -/
def withFile (p : PxePacket) (name : Bytes) : PxePacket := p.put fileOffset (name.resize fileLength)

/-- The packet without boot file and server. -/
def withoutParameters (p : PxePacket) : PxePacket := (p.withFile #[]).withServer .unspecified

/-- The form for diagnostics. -/
def describe (p : PxePacket) : String :=
  let octets := ", ".intercalate (p.server.octets.map fun b => s!"{b.toNat}")
  s!"PxePacket \x7b server_ip: [{octets}], boot_file_len: {p.file.size} \x7d"

end PxePacket

/-- The state that the network boot stack shows; each flag is a byte, and any other value than
    zero says yes. -/
structure BaseCodeMode where
  started : UInt8 := 0
  ipv6Available : UInt8 := 0
  ipv6Supported : UInt8 := 0
  usingIpv6 : UInt8 := 0
  bisSupported : UInt8 := 0
  bisDetected : UInt8 := 0
  autoArp : UInt8 := 0
  sendGuid : UInt8 := 0
  discoverValid : UInt8 := 0
  ackReceived : UInt8 := 0
  proxyReceived : UInt8 := 0
  pxeDiscoverValid : UInt8 := 0
  replyReceived : UInt8 := 0
  bisReplyReceived : UInt8 := 0
  icmpErrorReceived : UInt8 := 0
  tftpErrorReceived : UInt8 := 0
  makeCallbacks : UInt8 := 0
  timeToLive : UInt8 := 0
  typeOfService : UInt8 := 0
  stationIp : Vector UInt8 16 := .replicate 16 0
  subnetMask : Vector UInt8 16 := .replicate 16 0
  /-- The DHCP discover packet that was sent. -/
  discover : PxePacket := default
  /-- The DHCP acknowledgement. -/
  ack : PxePacket := default
  /-- The offer of a proxy. -/
  proxy : PxePacket := default
  pxeDiscover : PxePacket := default
  /-- The answer of a boot server. -/
  reply : PxePacket := default
  bisReply : PxePacket := default
  deriving DecidableEq, Repr

namespace BaseCodeMode

instance : Inhabited BaseCodeMode := ⟨{}⟩

/-- The boot server: by the answer of a boot server, else by a proxy's offer, else by the
    acknowledgement. -/
def bootServer? (m : BaseCodeMode) : Option Ipv4 :=
  if m.replyReceived ≠ 0 then some m.reply.server
  else if m.proxyReceived ≠ 0 then some m.proxy.server
  else if m.ackReceived ≠ 0 then some m.ack.server
  else none

def flag (value : UInt8) (fact : PxeMode) : PxeMode := if value ≠ 0 then fact else .none

/-- What the stack has done so far. -/
def summary (m : BaseCodeMode) : PxeMode :=
  (((flag m.started .started).union (flag m.ackReceived .dhcpAckReceived)).union
    (flag m.proxyReceived .proxyOfferReceived)).union (flag m.replyReceived .pxeReplyReceived)

def withoutReply (m : BaseCodeMode) : BaseCodeMode :=
  if m.replyReceived ≠ 0 then { m with replyReceived := 0, reply := m.reply.withoutParameters } else m

def withoutProxy (m : BaseCodeMode) : BaseCodeMode :=
  if m.proxyReceived ≠ 0 then { m with proxyReceived := 0, proxy := m.proxy.withoutParameters } else m

/-- Names another boot file and server to later stages. The file is already written when an
    unspecified server is refused. -/
def redirect (m : BaseCodeMode) (file : String) (server : Ipv4) : Except ServiceError Unit × BaseCodeMode :=
  let m := m.withoutReply.withoutProxy
  if m.ackReceived = 0 then (.error .notFound, m)
  else
    let ack := m.ack.withFile (Bytes.ofString file)
    if server.isUnspecified then (.error .invalidParameter, { m with ack })
    else (.ok (), { m with ack := ack.withServer server })

private def redirectTarget : String := "netchain_uefi::platform::network"

/-- What is noted about it. -/
def redirectNotes (m : BaseCodeMode) (file : String) (server : Ipv4) : List Log.Record :=
  if m.ackReceived = 0 then []
  else
    ⟨.debug, redirectTarget, s!"boot file changed to {file}"⟩ ::
      if server.isUnspecified then [] else [⟨.debug, redirectTarget, s!"boot server changed to {server.text}"⟩]

end BaseCodeMode

end NetBoot.Net
