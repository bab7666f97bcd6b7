/-
  NetBoot.Boot.Session — a machine with an operator in front of it, who sees diagnostics in debug
  mode and has time to read them.
-/

import NetBoot.Platform

namespace NetBoot.Boot

structure Session (m : Type → Type) where
  host : Host m
  debug : Bool := false

namespace Session

variable {m : Type → Type} [Monad m]

def say (s : Session m) (pieces : List String) : m Unit := s.host.say pieces

/-- Says something in debug mode only. -/
def sayDebug (s : Session m) (pieces : List String) : m Unit := if s.debug then s.say pieces else pure ()

/-- Gives the operator so many seconds to read, in debug mode only. -/
def debugDelay (s : Session m) (seconds : Nat) : m Unit := do
  if s.debug then
    s.say [s!"{seconds}", " seconds debug delay...\n"]
    s.host.sleep (UInt32.ofNat (seconds * 1000))

/-- The form for diagnostics. -/
def describe (debug : Bool) : String := s!"Platform \x7b debug: {debug}, .. \x7d"

end Session

end NetBoot.Boot
