/-
  NetBoot.Status — status codes of the firmware, and the errors a platform service reports.

  A status is a 64-bit word. Its top bit marks an error; zero is success and any other value
  without the top bit is a warning, which is neither. `ServiceError` keeps apart the statuses
  that a caller tells apart and carries every other one whole, so nothing is lost on the way
  (`status_ofStatus`).
-/

import NetBoot.Text.Hex

namespace NetBoot

structure Status where
  bits : UInt64
  deriving DecidableEq, Repr

namespace Status

def errorBit : UInt64 := 0x8000000000000000

/-- The error numbered `n`. -/
def ofError (n : UInt64) : Status := ⟨errorBit ||| n⟩

def success : Status := ⟨0⟩
def loadError : Status := ofError 1
def invalidParameter : Status := ofError 2
def unsupported : Status := ofError 3
def bufferTooSmall : Status := ofError 5
def notReady : Status := ofError 6
def deviceError : Status := ofError 7
def outOfResources : Status := ofError 9
def notFound : Status := ofError 14
def accessDenied : Status := ofError 15
/-- The network stack has no address configured yet. -/
def noMapping : Status := ofError 17
def timeout : Status := ofError 18
def notStarted : Status := ofError 19
def aborted : Status := ofError 21
def tftpError : Status := ofError 23
def securityViolation : Status := ofError 26

instance : Inhabited Status := ⟨success⟩

def isSuccess (s : Status) : Bool := s.bits == 0

theorem isSuccess_iff {s : Status} : s.isSuccess = true ↔ s = success := by
  obtain ⟨bits⟩ := s
  rw [isSuccess, beq_iff_eq]
  exact ⟨fun h => congrArg Status.mk h, fun h => congrArg Status.bits h⟩

def isError (s : Status) : Bool := s.bits &&& errorBit != 0

/-- The number without the error mark. -/
def code (s : Status) : UInt64 := s.bits &&& ~~~errorBit

/-- A warning counts as done. -/
def check (s : Status) : Except Status Unit := if s.isError then .error s else .ok ()

/-- The statuses that have a name. -/
def names : List (Status × String) :=
  [(success, "SUCCESS"), (loadError, "LOAD_ERROR"), (invalidParameter, "INVALID_PARAMETER"),
    (unsupported, "UNSUPPORTED"), (bufferTooSmall, "BUFFER_TOO_SMALL"), (notReady, "NOT_READY"),
    (deviceError, "DEVICE_ERROR"), (outOfResources, "OUT_OF_RESOURCES"), (notFound, "NOT_FOUND"),
    (accessDenied, "ACCESS_DENIED"), (timeout, "TIMEOUT"), (notStarted, "NOT_STARTED"),
    (aborted, "ABORTED"), (tftpError, "TFTP_ERROR"), (securityViolation, "SECURITY_VIOLATION")]

def text (s : Status) : String :=
  match names.lookup s with
  | some name => name
  | none => if s.isError then s!"ERROR({s.code.toNat})" else s!"WARNING({s.code.toNat})"

/-- The form for diagnostics. -/
def describe (s : Status) : String := s!"Status({s.text})"

end Status

/-- Why a platform service did not do what it was asked for. -/
inductive ServiceError where
  | notSupported
  | invalidParameter
  | notFound
  | notReady
  | timeout
  | outOfMemory
  | firmware (status : Status)
  deriving DecidableEq, Repr

namespace ServiceError

def ofStatus (s : Status) : ServiceError :=
  if s = .notFound then .notFound
  else if s = .notReady then .notReady
  else if s = .timeout then .timeout
  else if s = .outOfResources then .outOfMemory
  else if s = .unsupported then .notSupported
  else if s = .invalidParameter then .invalidParameter
  else .firmware s

def status : ServiceError → Status
  | .notSupported => .unsupported
  | .invalidParameter => .invalidParameter
  | .notFound => .notFound
  | .notReady => .notReady
  | .timeout => .timeout
  | .outOfMemory => .outOfResources
  | .firmware s => s

def name : ServiceError → String
  | .notSupported => "NotSupported"
  | .invalidParameter => "InvalidParameter"
  | .notFound => "NotFound"
  | .notReady => "NotReady"
  | .timeout => "Timeout"
  | .outOfMemory => "OutOfMemory"
  | .firmware _ => "Firmware"

def message : ServiceError → String
  | .firmware s => s!"firmware error {s.text}"
  | e => e.name

/-- The result a status stands for. -/
def check (s : Status) : Except ServiceError Unit :=
  if s.isError then .error (ofStatus s) else .ok ()

theorem status_ofStatus (s : Status) : (ofStatus s).status = s := by
  unfold ofStatus
  repeat' split
  all_goals
    subst_vars
    rfl

end ServiceError

end NetBoot
