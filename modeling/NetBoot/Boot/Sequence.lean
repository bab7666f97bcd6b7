/-
  NetBoot.Boot.Sequence — a whole network boot.

  The configuration comes from the DHCP server. The servers it names are asked in turn for a
  menu, and the first from which something is chosen decides: the server is told, and the choice
  is carried out. Whatever goes wrong ends in a boot from the local disk.
-/

import NetBoot.Net.Dhcp
import NetBoot.Boot.Config
import NetBoot.Boot.Retry
import NetBoot.Boot.Chainload

namespace NetBoot.Boot

/-- What is left to do after a network boot. -/
inductive Outcome where
  /-- The firmware goes on to the local disk. -/
  | localBoot
  /-- The firmware shows its boot prompt. -/
  | prompt
  /-- A program has run, and ended. -/
  | chainloaded (exit : Exit)
  deriving DecidableEq, Repr

/-- The status this program ends with. -/
def Outcome.status : Outcome → Status
  | localBoot => .notStarted
  | prompt => .success
  | chainloaded exit => exit.status

/-- How a client shows itself to the servers. -/
structure Identity where
  mac : Net.Mac
  uuid : Option String
  architecture : UInt16
  deriving DecidableEq, Repr

structure Client where
  strategy : Strategy := .core
  /-- As the last boot read them. -/
  settings : Settings := {}
  /-- Show diagnostics. -/
  debug : Bool := false
  deriving DecidableEq, Repr

variable {m : Type → Type} [Monad m]

private def dhcpTarget : String := "netchain_pxe::dhcp"

/-- The architecture that the firmware announced for this client. -/
def announcedArchitecture (net : Network m) : m (Except BootError UInt16) := do
  match ← net.discoverPacket with
  | .error e => do
    net.error dhcpTarget s!"no DHCP discover packet: {e.message}"
    return .error .noArchitectureType
  | .ok packet => return demand (Net.Dhcp.architecture? packet) .noArchitectureType

def identify (s : Session m) : m (Except BootError Identity) := do
  match ← s.host.clientMac with
  | .error e => return .error (.network e)
  | .ok mac => do
    s.sayDebug ["MAC address of client: ", mac.text, "\n"]
    match ← announcedArchitecture s.host.toNetwork with
    | .error e => return .error e
    | .ok architecture => do
      s.sayDebug ["Processor architecture type of client: ", s!"{architecture.toNat}", "\n"]
      return .ok ⟨mac, ← s.host.systemUuid, architecture⟩

/-! ## Menu servers -/

private def sequenceTarget : String := "netchain_pxe::start"

/-- Times that a look-up is repeated while the network stack is not ready. -/
def lookupRetries : Nat := 10

/-- Repeats a look-up while it answers that the stack is not ready. -/
def retryLookup (s : Session m) (name : String) :
    Nat → Except ServiceError Net.Ipv4 → m (Except ServiceError Net.Ipv4)
  | retries + 1, .error .notReady => do
    s.host.sleep 1000
    retryLookup s name retries (← s.host.resolveHost name)
  | _, result => return result

/-- The address of a configured server. -/
def resolve (s : Session m) (dhcpServer : Net.Ipv4) (name : String) : m (Except BootError Net.Ipv4) := do
  if name.isEmpty then return .ok dhcpServer
  else
    match Net.Ipv4.parse? name with
    | some address => return .ok address
    | none =>
      match ← retryLookup s name lookupRetries (← s.host.resolveHost name) with
      | .ok address => return .ok address
      | .error e => do
        s.host.toFirmware.warn sequenceTarget s!"server [{name}] could not be resolved: {e.message}"
        return .error .dnsFailure

/-- Loads the menu of a server and lets the user choose from it. -/
def askServer (s : Session m) (identity : Identity) (policy : RetryPolicy) (address : Net.Ipv4) :
    m (Option Menu.Selection) := do
  let server : Server := ⟨address, identity.mac, identity.uuid⟩
  match ← loadMenu s server identity.architecture policy address.text with
  | .error e => do
    s.sayDebug ["menu from ", address.text, ": ", e.message, "\n"]
    return none
  | .ok menu => menu.select s.host

/-- Asks the servers in turn, the next one being `number`, until something is chosen. -/
def selectFrom (s : Session m) (dhcpServer : Net.Ipv4) (identity : Identity) (policy : RetryPolicy) :
    Nat → List String → m (Except BootError (Net.Ipv4 × Menu.Selection))
  | _, [] => do
    s.say ["No boot server offered a boot menu, booting local disk\n"]
    return .error .noMenuOffered
  | number, name :: names => do
    match ← resolve s dhcpServer name with
    | .error e => do
      s.sayDebug [name, ": ", e.message, "\n"]
      selectFrom s dhcpServer identity policy (number + 1) names
    | .ok address =>
      if address.isUnspecified then
        s.sayDebug ["server ip [server number ", s!"{number}", "]: ", address.text, " is not valid\n"]
        selectFrom s dhcpServer identity policy (number + 1) names
      else
        s.say ["server ip [server number ", s!"{number}", "]: ", address.text, "\n"]
        match ← askServer s identity policy address with
        | some selection => return .ok (address, selection)
        | none => selectFrom s dhcpServer identity policy (number + 1) names

/-- Asks the configured servers, eight at most. -/
def selectEntry (s : Session m) (settings : Settings) (dhcpServer : Net.Ipv4) (identity : Identity) :
    m (Except BootError (Net.Ipv4 × Menu.Selection)) :=
  selectFrom s dhcpServer identity { retries := settings.menuRetries } 0
    (settings.servers.take Config.maxServers)

/-! ## The chosen entry -/

/-- Sends a command; a refusal is only shown. -/
def tell (s : Session m) (server : Server) (action : Action) : m Unit := do
  match ← server.command s.host.toNetwork action with
  | .ok () => pure ()
  | .error e => s.say ["error: ", e.message, "\n"]

/-- Does the server want to be told which boot environment starts? Not when its own default was
    chosen. -/
def tellsBootEnv (selection : Menu.Selection) : Bool :=
  selection.entry.updatesBootEnv && !selection.defaultChosen

/-- Is the path of the boot environment to be set? -/
def setsPathPrefix (settings : Settings) (entry : Menu.Entry) : Bool :=
  !(entry.kind == .localDisk || entry.kind == .bootPrompt) && !settings.dontSetPathPrefix

/-- Tells the server what has been chosen. -/
def report (s : Session m) (settings : Settings) (server : Server) (selection : Menu.Selection) : m Unit := do
  let entry := selection.entry
  if tellsBootEnv selection then
    s.say ["Updating client boot environment...\n"]
    tell s server (.updateBootEnv entry.bootEnvGuid)
  if setsPathPrefix settings entry then
    s.say ["Setting TFTP path prefix to \"", entry.pathPrefix, "\"...\n"]
    tell s server (.setPathPrefix entry.bootEnvGuid entry.pathPrefix)
  else s.say ["Skipped setting the TFTP path prefix due to configuration\n"]

/-- Carries out what has been chosen. -/
def perform (s : Session m) (traps : Cell m Image.Traps) (chainloader : Chainloader) (server : Net.Ipv4)
    (entry : Menu.Entry) : m (Except BootError Outcome) := do
  match entry.kind with
  | .chainload => do
    s.say ["PXE chainloading ", entry.command, "\n"]
    return (← chainloader.run s traps entry.command server).map .chainloaded
  | .bootPrompt => do
    s.say ["Executing boot prompt\n"]
    return .ok .prompt
  | _ => do
    s.say ["Executing local boot\n"]
    return .ok .localBoot

def processEntry (s : Session m) (traps : Cell m Image.Traps) (strategy : Strategy) (settings : Settings)
    (identity : Identity) (address : Net.Ipv4) (selection : Menu.Selection) : m (Except BootError Outcome) := do
  s.say ["\n\n", selection.entry.text, "\n\n"]
  report s settings ⟨address, identity.mac, identity.uuid⟩ selection
  s.debugDelay 5
  perform s traps ⟨strategy, settings.alwaysSecureBootChain⟩ address selection.entry

/-! ## The sequence -/

namespace Client

/-- The boot with settings that have been read. -/
def proceed (s : Session m) (traps : Cell m Image.Traps) (strategy : Strategy) (settings : Settings)
    (dhcpServer : Net.Ipv4) : m (Except BootError Outcome) := do
  s.sayDebug ["DHCP packet server IP: ", dhcpServer.text, "\n"]
  match ← identify s with
  | .error e => return .error e
  | .ok identity => do
    s.debugDelay 5
    match ← selectEntry s settings dhcpServer identity with
    | .error e => return .error e
    | .ok (menuServer, selection) =>
      processEntry s traps strategy settings identity
        (if settings.bootFromMenuServer then menuServer else dhcpServer) selection

/-- Shows why the boot cannot begin, long enough to be read. -/
def refuse (host : Host m) (what : String) (e : BootError) (reason : String) : m (Except BootError Outcome) := do
  host.say [what, ": ", reason, "\n"]
  host.sleep 5000
  return .error e

/-- Boots. The client comes back with the settings that were read. -/
def start (c : Client) (host : Host m) (traps : Cell m Image.Traps) : m (Client × Except BootError Outcome) := do
  if !(← host.pxeMode).isNetboot then return (c, .error .notNetBoot)
  else
    match ← host.dhcpServer with
    | .error e => return (c, ← refuse host "cannot get DHCP server address" (.network e) e.message)
    | .ok dhcpServer =>
      match ← PropertyList.fetch host.toNetwork dhcpServer with
      | .error e => return (c, ← refuse host "cannot read configuration" e e.message)
      | .ok properties => do
        let settings := Settings.ofProperties properties
        let c := { c with settings, debug := settings.isDebug }
        host.setLogLimit (.ofDebug c.debug)
        return (c, ← proceed ⟨host, c.debug⟩ traps c.strategy settings dhcpServer)

/-- How long the message about a bad signature stays on the screen, in milliseconds. -/
def signatureWait : UInt32 := 30000

/-- Boots, and shows what went wrong. -/
def run (c : Client) (host : Host m) (traps : Cell m Image.Traps) : m (Client × Outcome) := do
  match ← c.start host traps with
  | (c, .ok outcome) => return (c, outcome)
  | (c, .error e) => do
    host.toFirmware.error sequenceTarget s!"network boot failed: {e.message}"
    host.say ["error: ", e.message, "\n"]
    if e.isSignatureError then let _ ← host.readKey signatureWait
    else (Session.mk host c.debug).debugDelay 10
    return (c, .localBoot)

end Client

end NetBoot.Boot
