/-
  NetBoot.Image.Secure — Secure Boot: whether the platform enforces it, and the check of an
  image's signature.

  Secure Boot is enforced when the variable `SecureBoot` is the single byte 1 and `SetupMode` is
  not. An image passes only if there is a verifier and it answers success.
-/

import NetBoot.Platform
import NetBoot.Image.Error

namespace NetBoot.Image.Secure

variable {m : Type → Type} [Monad m]

private def secureTarget : String := "netchain_peimage::secure"

/-- Is the variable the single byte 1? -/
def isOne (value : Option Bytes) : Bool := value == some #[1]

/-- Are these the two variables of a platform that enforces Secure Boot? -/
def enforced (secureBoot setupMode : Option Bytes) : Bool := isOne secureBoot && !isOne setupMode

def secureMode (fw : Firmware m) : m Bool := do
  let secureBoot ← fw.readVariable "SecureBoot" .globalVariable
  let setupMode ← fw.readVariable "SetupMode" .globalVariable
  fw.debug secureTarget s!"secure boot: {isOne secureBoot}, setup mode: {isOne setupMode}"
  return enforced secureBoot setupMode

/-- What the answer of the verifier means. -/
def verdict : Option Status → Except LoadError Unit
  | none => .error .validatorUnavailable
  | some status => if status.isSuccess then .ok () else .error .signatureInvalid

/-- What is noted about the answer of the verifier. -/
def note (image : Bytes) : Option Status → Log.Record
  | none => ⟨.error, secureTarget, s!"image verifier {Guid.shimLock.text} not available"⟩
  | some status =>
    if status.isSuccess then ⟨.info, secureTarget, s!"image signature verified ({image.size} bytes)"⟩
    else ⟨.error, secureTarget, s!"image signature rejected: {status.text}"⟩

def validate (fw : Firmware m) (image : Bytes) : m (Except LoadError Unit) := do
  let answer ← fw.verify image
  fw.log (note image answer)
  return verdict answer

end NetBoot.Image.Secure
