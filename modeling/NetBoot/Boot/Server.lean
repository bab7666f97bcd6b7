/-
  NetBoot.Boot.Server — requests to a boot management server.

  A request is the name of a file: it spells the client's hardware address, its UUID and what is
  asked for, cut to 128 bytes. The answer is the file: a menu, or `ok` for a command that the
  server has carried out.
-/

import NetBoot.Boot.Transfer
import NetBoot.Text.Blank
import NetBoot.Text.Utf8

namespace NetBoot.Boot

/-- What a server is asked for. -/
inductive Action where
  | menu (architecture : UInt16)
  /-- A boot environment is about to start. -/
  | updateBootEnv (guid : String)
  | setPathPrefix (guid path : String)
  deriving DecidableEq, Repr

def Action.text : Action → String
  | menu architecture => s!"menu#{architecture.toNat}"
  | updateBootEnv guid => s!"updateclientbootenv#{guid}"
  | setPathPrefix guid path => s!"setpathprefix#{guid}#{path}"

/-- Bytes of a request. -/
def maxRequest : Nat := 128

/-- The UUID of a client that has none. -/
def nilUuid : String := "00000000-0000-0000-0000-000000000000"

/-- The name of the file that a request reads. -/
def requestName (mac : Net.Mac) (uuid : Option String) (action : Action) : String :=
  Text.cutString maxRequest s!"/bbl/{mac.compact}/{uuid.getD nilUuid}/{action.text}"

/-- Does the answer consent? It is `ok` in either case, zeros and blanks behind it aside. -/
def isOkResponse (body : Bytes) : Bool :=
  let kept := Text.dropEndWhile (fun b => b == 0 || Text.isBlankByte b) body.toList
  kept.map Text.lowerByte == "ok".toUTF8.data.toList

/-- A server, and this client as it shows itself to it. -/
structure Server where
  address : Net.Ipv4
  mac : Net.Mac
  uuid : Option String
  deriving DecidableEq, Repr

namespace Server

variable {m : Type → Type} [Monad m]

private def serverTarget : String := "netchain_pxe::bms"

def fetch (s : Server) (net : Network m) (action : Action) : m (Except BootError Bytes) := do
  let name := requestName s.mac s.uuid action
  net.debug serverTarget s!"file request: {name}"
  Transfer.fetch net s.address name

/-- The answer of a server as it is noted: zeros, then blanks, dropped at its end. -/
def answerText (body : Bytes) : String :=
  String.ofList (Text.dropEndBlank (Text.dropEndWhile (·.toNat == 0) (Text.decodeLossy body.toList)))

/-- A request that the server has to consent to. -/
def command (s : Server) (net : Network m) (action : Action) : m (Except BootError Unit) := do
  match ← s.fetch net action with
  | .error e => return .error e
  | .ok body =>
    if isOkResponse body then return .ok ()
    else
      net.warn serverTarget s!"{s.address.text} rejected {action.text}: {answerText body}"
      return .error .serverRejected

def menu (s : Server) (net : Network m) (architecture : UInt16) : m (Except BootError Bytes) :=
  s.fetch net (.menu architecture)

end Server

end NetBoot.Boot
