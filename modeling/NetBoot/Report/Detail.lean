/-
  NetBoot.Report.Detail — small values with all that can be said of them.

  A status, an address or an error is one word in a trace. Here it stands alone, with its texts, the
  questions that it answers and what it becomes in its neighbours' types.
-/

import NetBoot.Report.Boot
import NetBoot.Report.Image
import NetBoot.Smbios

namespace NetBoot.Report

open Image (LoadError Machine)

/-- A status beside the error of a service that it stands for. -/
def detailStatus (s : Status) : Report :=
  let e := ServiceError.ofStatus s
  fields [("display", report s), ("debug", report s.describe), ("success", report s.isSuccess),
    ("is_error", report s.isError), ("code", report s.code),
    ("to_result", match s.check with
      | .ok () => report "ok"
      | .error s => report s.bits),
    ("hal", report e), ("back", report e.status.bits), ("default", report (default : Status).bits)]

def detailServiceError (e : ServiceError) : Report :=
  fields [("display", report e.message), ("status", report e.status.bits)]

def detailGuid (g : Guid) : Report :=
  fields [("display", report g.text), ("debug", report g.describe), ("is_global", report (g == .globalVariable)),
    ("is_shim", report (g == .shimLock))]

/-- A text, read as an address. -/
def detailIpv4 (s : String) : Report :=
  match Net.Ipv4.parse? s with
  | .none => fields [("parsed", none)]
  | some a => fields [("parsed", report a), ("display", report a.text), ("unspecified", report a.isUnspecified)]

def detailMac (m : Net.Mac) : Report :=
  fields [("display", report m), ("compact", report m.compact), ("seed", report (Boot.Rng.ofMac m).seed.toInt)]

/-- An address beside a boundary and at a distance. -/
def detailAddress (a : Address) (align offset : UInt64) : Report :=
  let sum : Address := a + offset
  fields [("aligned", report (Address.isAligned a align)), ("up", report (Address.alignUp a align)),
    ("add", report sum), ("back", report (Address.offsetFrom sum a)), ("hex", report (Address.text a)),
    ("pages", report (pagesFor a.toNat))]

def detailHandle (h : Handle) : Report := fields [("debug", report h.describe), ("null", report h.isNull)]

def detailKey (k : Key) : Report := fields [("key", report k), ("digit", report k.digit?)]

/-! ## Images -/

def detailMachine (m : Machine) : Report :=
  fields [("name", report m), ("code", report m.code), ("arch", report m.family), ("cpu_type", report m.cpuType?),
    ("native", report (m == .native))]

def detailLoadError (e : LoadError) : Report :=
  fields [("name", report e.name), ("display", report e.message), ("format", report e.isFormatError),
    ("relocation", report e.isRelocationError), ("security", report e.isSecurityError),
    ("status", report e.status.bits)]

/-- What a choice takes from a file. -/
def ofFatSelection (raw : Bytes) (s : Image.Fat.Selection) : Report :=
  match s with
  | .whole => fields [("pass", flag true), ("bytes", rows (s.apply raw))]
  | .part start size => fields [("start", report start), ("end", report (start + size)), ("bytes", rows (s.apply raw))]

open Image.Relocation in
/-- An instruction with another constant, and a pair of instructions moved. -/
def detailThumb (i : Thumb.Instruction) (constant : UInt16) (pair : Bytes) (delta : UInt32) : Report :=
  let s := i.setImmediate constant.toNat
  fields [("imm", report i.immediate), ("set", report (s.first, s.second)),
    ("pair", report ((Thumb.MovPair.at? pair 0).map fun p => (p.relocate delta).encode))]

open Image.Relocation in
/-- The constants of two instructions, another value in them, and the pair moved. -/
def detailRiscV (hi lo value delta : UInt32) : Report :=
  let pair (f : RiscV.LowForm) := report (RiscV.relocatePair f hi lo delta)
  fields [("hi20", report (RiscV.high hi)), ("set_hi20", report (RiscV.setHigh hi value)),
    ("lo12i", report (RiscV.LowForm.iType.low lo)), ("set_lo12i", report (RiscV.LowForm.iType.setLow lo value)),
    ("lo12s", report (RiscV.LowForm.sType.low lo)), ("set_lo12s", report (RiscV.LowForm.sType.setLow lo value)),
    ("pair_i", pair .iType), ("pair_s", pair .sType)]

/-! ## The boot client -/

def detailBootError (e : BootError) : Report :=
  fields [("name", report e.name), ("display", report e.message), ("signature", report e.isSignatureError),
    ("server", report e.isServerError), ("status", report e.status.bits)]

/-- A packet with all its options, and with those of some codes. -/
def detailDhcp (packet : Bytes) (codes : List UInt8) : Report :=
  fields [("options", report ((Net.Dhcp.options packet).map fun o => (o.code, o.value.toArray))),
    ("find", report (codes.map fun c => (Net.Dhcp.find? packet c).map (·.toArray))),
    ("arch", report (Net.Dhcp.architecture? packet))]

def detailName (key s : String) : Report := fields [(key, report s), ("bytes", report s.utf8ByteSize)]

/-! ## Text and tables of the firmware -/

/-- A text in units of sixteen bits, and back. -/
def detailUcs2 (s : String) : Report :=
  let units := Text.Ucs2.encode s.toList
  fields [("units", report units), ("console", report (Text.Ucs2.encodeConsole s.toList)),
    ("back", report (String.ofList (Text.Ucs2.decode units)))]

/-- Units of sixteen bits as text, and as a buffer of a size, which may not be there. -/
def detailUnits (units : List UInt16) (isThere : Bool) (size : Nat) : Report :=
  fields [("text", report (String.ofList (Text.Ucs2.decode units))),
    ("raw", report ((Text.Ucs2.decodeBuffer (if isThere then some units else .none) size).map String.ofList))]

def detailSystemTable (table : Bytes) : Report :=
  let uuid := Smbios.systemUuid? table.toList
  fields [("uuid", report (uuid.map (·.toArray))), ("text", report (uuid.map Smbios.uuidText))]

/-- An entry of 32 bytes, read in either form. -/
def detailEntryPoint (entry : Bytes) : Report :=
  let range (t : Option Smbios.TableRange) := report (t.map fun t => (t.address, t.length))
  fields [("sm", range (Smbios.entryPoint? entry)), ("sm3", range (Smbios.entryPoint3? entry))]

end NetBoot.Report
