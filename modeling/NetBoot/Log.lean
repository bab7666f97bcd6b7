/-
  NetBoot.Log — diagnostic records and the console logger that prints them.

  A record has a level, the part of the program it comes from, and a message. The logger prints
  a record when a console is attached and the record is at least as grave as its limit.
-/

namespace NetBoot.Log

inductive Level where
  | error
  | warn
  | info
  | debug
  | trace
  deriving DecidableEq, Repr

/-- How much detail the level stands for: graver is smaller. -/
def Level.rank : Level → Nat
  | .error => 1
  | .warn => 2
  | .info => 3
  | .debug => 4
  | .trace => 5

/-- The level in five columns. -/
def Level.label : Level → String
  | .error => "ERROR"
  | .warn => "WARN "
  | .info => "INFO "
  | .debug => "DEBUG"
  | .trace => "TRACE"

/-- What is shown at most; `none` shows nothing. -/
abbrev Limit := Option Level

/-- The limit outside debug mode. -/
def Limit.default : Limit := some .warn

def Limit.ofDebug (debug : Bool) : Limit := if debug then some .debug else .default

structure Record where
  level : Level
  target : String
  message : String
  deriving DecidableEq, Repr

def Record.line (r : Record) : String := s!"[{r.level.label}] {r.target}: {r.message}"

/-- Is the record within the limit? -/
def Record.shownAt (r : Record) (limit : Limit) : Bool :=
  match limit with
  | none => false
  | some l => r.level.rank ≤ l.rank

/-- The console logger. -/
structure Logger where
  attached : Bool := false
  limit : Limit := none
  deriving DecidableEq, Repr

namespace Logger

/-- The text that a record puts on the console. -/
def printed (l : Logger) (r : Record) : Option String :=
  if l.attached && r.shownAt l.limit then some (r.line ++ "\n") else none

/-- The form for diagnostics. -/
def describe (l : Logger) : String := s!"ConsoleLogger \x7b attached: {l.attached} \x7d"

end Logger

end NetBoot.Log
