/-
  NetBoot.Boot.Config — the configuration file: lines `name=value`, and the settings they make.

  A line that starts with `#` is a comment. Names are compared without regard to case and the
  first line with a name decides. Lines do not affect one another: what a text assigns is what
  its lines assign, one after the other (`assignments`), and the file keeps the first 32 of
  those and, as servers, the first 8 of those named `server`. A missing file leaves every setting
  at its default.
-/

import NetBoot.Boot.Transfer
import NetBoot.Check
import NetBoot.Text.Blank
import NetBoot.Text.Utf8

namespace NetBoot.Boot

namespace Config

/-- The configuration file on the DHCP server. -/
def fileName : String := "/bblefi.cfg"

def maxServers : Nat := 8

def maxProperties : Nat := 32

/-- Bytes of a name. -/
def maxName : Nat := 20

/-- Bytes of a value. -/
def maxValue : Nat := 512

/-! ## Lines -/

inductive LineError where
  | missingSeparator
  | nameTooLong
  | valueTooLong
  deriving DecidableEq, Repr

def LineError.name : LineError → String
  | missingSeparator => "MissingSeparator"
  | nameTooLong => "NameTooLong"
  | valueTooLong => "ValueTooLong"

/-- The text before and behind the first `=`. -/
def splitAtEquals (line : List Char) : Option (List Char × List Char) :=
  match line.dropWhile (· != '=') with
  | [] => none
  | _ :: r => some (line.takeWhile (· != '='), r)

/-- The name and value of a line; none for a comment and for a blank line. -/
def parseLine (line : List Char) : Except LineError (Option (List Char × List Char)) :=
  let line := Text.trim line
  if line.isEmpty || line.head? == some '#' then .ok none
  else do
    let (name, value) ← demand (splitAtEquals line) .missingSeparator
    let name := Text.trim name
    need (Text.utf8Len name ≤ maxName) .nameTooLong
    let value := Text.trim value
    need (Text.utf8Len value ≤ maxValue) .valueTooLong
    return some (name, value)

structure Property where
  name : String
  value : String
  deriving DecidableEq, Repr

/-- What a line assigns: nothing if it is faulty, or its name or value is empty. -/
def assignment? (line : List Char) : Option Property :=
  match parseLine line with
  | .ok (some (name, value)) =>
    if name.isEmpty || value.isEmpty then none else some ⟨String.ofList name, String.ofList value⟩
  | _ => none

/-- What the lines of a text assign, in their order. -/
def assignments (text : List Char) : List Property := (Text.lines text).filterMap assignment?

def sameName (a b : String) : Bool := Text.sameLetters a.toList b.toList

def isServer (p : Property) : Bool := sameName p.name "server"

end Config

/-! ## Properties -/

structure PropertyList where
  properties : List Config.Property := []
  servers : List String := []
  deriving DecidableEq, Repr

namespace PropertyList

def parse (text : List Char) : PropertyList where
  properties := (Config.assignments text).take Config.maxProperties
  servers := (((Config.assignments text).filter Config.isServer).take Config.maxServers).map (·.value)

/-- The value of the first property of this name. -/
def get? (l : PropertyList) (name : String) : Option String :=
  (l.properties.find? fun p => Config.sameName p.name name).map (·.value)

/-- Is the value exactly `1`? -/
def isEnabled (l : PropertyList) (name : String) : Bool := l.get? name == some "1"

def size (l : PropertyList) : Nat := l.properties.length

def isEmpty (l : PropertyList) : Bool := l.properties.isEmpty

private def configTarget : String := "netchain_pxe::config"

/-- What is noted about a text: its faulty lines. -/
def parseNotes (text : List Char) : List Log.Record :=
  (Text.lines text).zipIdx.filterMap fun (line, i) =>
    match Config.parseLine line with
    | .error e => some ⟨.warn, configTarget, s!"{Config.fileName} line {i + 1}: {e.name}"⟩
    | .ok _ => none

def notes (l : PropertyList) : List Log.Record :=
  l.properties.map fun p => ⟨.debug, configTarget, s!"  {p.name}={p.value}"⟩

variable {m : Type → Type} [Monad m]

/-- Fetches the configuration file. -/
def fetch (net : Network m) (server : Net.Ipv4) : m (Except BootError PropertyList) := do
  match ← net.fileSize server Config.fileName with
  | .error e => do
    net.debug configTarget s!"no {Config.fileName} on {server.text}: {e.message}"
    return .ok {}
  | .ok size =>
    match ← Transfer.read net server Config.fileName size with
    | .error _ => return .error .configRead
    | .ok bytes => do
      let text := Text.decodeLossy bytes.toList
      let l := parse text
      net.logAll (parseNotes text)
      net.logAll l.notes
      return .ok l

end PropertyList

/-! ## Settings -/

/-- The number that the text starts with behind blanks, zero if it starts with none; numbers of
    2^32 and above become 2^32 - 1. -/
def leadingNumber (text : List Char) : Nat :=
  min (Net.Ipv4.decimal ((Text.dropBlank text).takeWhile Char.isDigit)) (UInt32.size - 1)

structure Settings where
  /-- Zero is off. -/
  debug : Nat := 0
  /-- How often a menu request is repeated. -/
  menuRetries : Nat := 0
  /-- Boot files come from the server that offered the menu. -/
  bootFromMenuServer : Bool := false
  dontSetPathPrefix : Bool := false
  /-- Validate images even without Secure Boot. -/
  alwaysSecureBootChain : Bool := false
  /-- An empty name stands for the DHCP server. -/
  servers : List String := [""]
  deriving DecidableEq, Repr

namespace Settings

instance : Inhabited Settings := ⟨{}⟩

def ofProperties (l : PropertyList) : Settings where
  debug := ((l.get? "debug").map fun v => leadingNumber v.toList).getD 0
  menuRetries := ((l.get? "menuretries").map fun v => leadingNumber v.toList).getD 0
  bootFromMenuServer := l.isEnabled "bootfrommenuserver"
  dontSetPathPrefix := l.isEnabled "dontsetpathprefix"
  alwaysSecureBootChain := l.isEnabled "alwayssecbootchain"
  servers := if l.servers.isEmpty then [""] else l.servers

def isDebug (s : Settings) : Bool := s.debug != 0

end Settings

end NetBoot.Boot
