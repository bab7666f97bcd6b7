/-
  NetBoot.Image.Error — why an image could not be loaded, validated or launched.
-/

import NetBoot.Status

namespace NetBoot.Image

inductive LoadError where
  /-- A header, table or section runs past the end of the file. -/
  | truncatedImage
  | notPeCoff
  | unsupportedMachine (code : UInt16)
  | notEfiApplication
  | invalidAlignment
  | sectionInsideHeader
  | sectionOutsideImage
  | outOfMemory
  /-- A relocation block or the site of a fixup lies outside the image. -/
  | relocationOutOfBounds (offset : UInt32)
  | unsupportedRelocationType (kind : UInt8) (offset : UInt32)
  | badRelocation
  /-- A fat container without an image for this machine. -/
  | noCompatibleArch
  | signatureInvalid
  | validatorUnavailable
  | launchFailed (status : Status)
  deriving DecidableEq, Repr

namespace LoadError

def isFormatError : LoadError → Bool
  | truncatedImage | notPeCoff | unsupportedMachine _ | notEfiApplication | invalidAlignment
  | sectionInsideHeader | sectionOutsideImage | noCompatibleArch => true
  | _ => false

def isRelocationError : LoadError → Bool
  | relocationOutOfBounds _ | unsupportedRelocationType .. | badRelocation => true
  | _ => false

def isSecurityError : LoadError → Bool
  | signatureInvalid | validatorUnavailable => true
  | _ => false

def name : LoadError → String
  | truncatedImage => "TRUNCATED_IMAGE"
  | notPeCoff => "NOT_PE_COFF"
  | unsupportedMachine _ => "UNSUPPORTED_MACHINE"
  | notEfiApplication => "NOT_EFI_APPLICATION"
  | invalidAlignment => "INVALID_ALIGNMENT"
  | sectionInsideHeader => "SECTION_INSIDE_HEADER"
  | sectionOutsideImage => "SECTION_OUTSIDE_IMAGE"
  | outOfMemory => "OUT_OF_MEMORY"
  | relocationOutOfBounds _ => "RELOCATION_OUT_OF_BOUNDS"
  | unsupportedRelocationType .. => "UNSUPPORTED_RELOCATION_TYPE"
  | badRelocation => "BAD_RELOCATION"
  | noCompatibleArch => "NO_COMPATIBLE_ARCH"
  | signatureInvalid => "SIGNATURE_INVALID"
  | validatorUnavailable => "VALIDATOR_UNAVAILABLE"
  | launchFailed _ => "LAUNCH_FAILED"

def message (e : LoadError) : String :=
  match e with
  | unsupportedMachine code => e.name ++ ": machine " ++ Text.hex0xPadded 4 code.toNat
  | relocationOutOfBounds offset => e.name ++ ": offset " ++ Text.hex0xPadded 8 offset.toNat
  | unsupportedRelocationType kind offset =>
    e.name ++ s!": type {kind.toNat}, rva " ++ Text.hex0xPadded 8 offset.toNat
  | launchFailed status => e.name ++ ": " ++ status.text
  | _ => e.name

/-- The status this program ends with for the error. -/
def status : LoadError → Status
  | outOfMemory => .outOfResources
  | unsupportedMachine _ | notEfiApplication | noCompatibleArch => .unsupported
  | signatureInvalid => .securityViolation
  | validatorUnavailable => .notFound
  | launchFailed s => s
  | _ => .loadError

end LoadError

end NetBoot.Image
