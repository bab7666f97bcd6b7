/-
  NetBoot.Menu.Entry — the entries of a boot menu.
-/

import NetBoot.Bytes

namespace NetBoot.Menu

inductive Kind where
  /-- Unknown or unusable. -/
  | invalid
  /-- The seconds of the countdown, in the command. -/
  | timeout
  /-- The name that the server shows, in the command. -/
  | serverName
  /-- A line that is only shown. -/
  | text
  | localDisk
  | syslinuxPrompt
  | syslinuxCommand
  | syslinuxChainload
  /-- Runs the network boot program in the command. -/
  | chainload
  /-- Leaves to the firmware's boot prompt. -/
  | bootPrompt
  deriving DecidableEq, Repr

namespace Kind

def all : List Kind :=
  [invalid, timeout, serverName, text, localDisk, syslinuxPrompt, syslinuxCommand, syslinuxChainload,
    chainload, bootPrompt]

/-- The kind's number in a menu file. -/
def code : Kind → Nat
  | invalid => 0
  | timeout => 1
  | serverName => 2
  | text => 3
  | localDisk => 4
  | syslinuxPrompt => 5
  | syslinuxCommand => 6
  | syslinuxChainload => 7
  | chainload => 8
  | bootPrompt => 9

def ofCode (n : Nat) : Kind := all.getD n .invalid

/-- Can the user choose it? -/
def isSelectable : Kind → Bool
  | localDisk | chainload | bootPrompt => true
  | _ => false

theorem ofCode_code (k : Kind) : ofCode k.code = k := by cases k <;> rfl

end Kind

structure Entry where
  kind : Kind := .invalid
  /-- One bit a fact; other bits are kept. -/
  flags : UInt32 := 0
  text : String := ""
  command : String := ""
  bootEnvGuid : String := ""
  pathPrefix : String := ""
  deriving DecidableEq, Repr

namespace Entry

instance : Inhabited Entry := ⟨{}⟩

def hasFlag (e : Entry) (flag : UInt32) : Bool := e.flags &&& flag == flag

/-- Chosen when the user chooses nothing. -/
def isDefault (e : Entry) : Bool := e.hasFlag 1

/-- The server wants to be told when the user chooses it. -/
def updatesBootEnv (e : Entry) : Bool := e.hasFlag 4

def isSelectable (e : Entry) : Bool := e.kind.isSelectable

/-- The form for diagnostics. -/
def describe (e : Entry) : String :=
  s!"type:{e.kind.code} flags:{e.flags.toNat} text:{e.text} command:{e.command} bootenv:{e.bootEnvGuid} " ++
    s!"TftpPathPrefix:{e.pathPrefix}"

end Entry

end NetBoot.Menu
