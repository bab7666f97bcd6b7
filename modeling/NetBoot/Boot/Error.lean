/-
  NetBoot.Boot.Error — why a network boot ended.
-/

import NetBoot.Image.Error

namespace NetBoot

inductive BootError where
  /-- This system was not started from the network. -/
  | notNetBoot
  | network (error : ServiceError)
  /-- The DHCP discover packet names no client architecture. -/
  | noArchitectureType
  | dnsFailure
  | invalidArgument
  | configRead
  | menuParse
  | tooManyMenuEntries
  /-- A server answered a command with something other than consent. -/
  | serverRejected
  | noMenuOffered
  | image (error : Image.LoadError)
  | loadImage (status : Status)
  | startImage (status : Status)
  deriving DecidableEq, Repr

namespace BootError

def isSignatureError (e : BootError) : Bool := e == .image .signatureInvalid

/-- Is a file of the boot server at fault? -/
def isServerError : BootError → Bool
  | configRead | menuParse | tooManyMenuEntries | serverRejected | noMenuOffered => true
  | _ => false

def name : BootError → String
  | notNetBoot => "NOT_NET_BOOT"
  | network _ => "NETWORK"
  | noArchitectureType => "NO_ARCHITECTURE_TYPE"
  | dnsFailure => "DNS_FAILURE"
  | invalidArgument => "INVALID_ARGUMENT"
  | configRead => "CONFIG_READ"
  | menuParse => "MENU_PARSE"
  | tooManyMenuEntries => "TOO_MANY_MENU_ENTRIES"
  | serverRejected => "SERVER_REJECTED"
  | noMenuOffered => "NO_MENU_OFFERED"
  | image e => e.name
  | loadImage _ => "LOAD_IMAGE"
  | startImage _ => "START_IMAGE"

def message (e : BootError) : String :=
  match e with
  | network error => e.name ++ ": " ++ error.message
  | image error => "image: " ++ error.message
  | loadImage status | startImage status => e.name ++ ": " ++ status.text
  | _ => e.name

/-- The status this program ends with for the error. -/
def status : BootError → Status
  | notNetBoot => .notStarted
  | network e => e.status
  | dnsFailure | noMenuOffered => .notFound
  | invalidArgument => .invalidParameter
  | serverRejected => .accessDenied
  | image e => e.status
  | loadImage s | startImage s => s
  | noArchitectureType | configRead | menuParse | tooManyMenuEntries => .loadError

end BootError

end NetBoot
