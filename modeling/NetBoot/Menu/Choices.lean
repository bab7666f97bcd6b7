/-
  NetBoot.Menu.Choices — a boot menu: the entries of a menu file, the choices among them, and
  which is the default.

  Choices are numbered from 1 in file order, selectable entries only. The default is the first of
  them with the default flag. The last timeout entry sets the countdown and the last name entry
  the server's name.
-/

import NetBoot.Boot.Config
import NetBoot.Menu.Entry

namespace NetBoot

structure Menu where
  entries : List Menu.Entry
  timeout : Nat
  serverName : String
  deriving DecidableEq, Repr

namespace Menu

/-- Seconds of the countdown when the menu names none. -/
def defaultTimeout : Nat := 5

/-- Bytes of the name of a server. -/
def maxServerName : Nat := 128

/-- The command of the last entry of a kind. -/
def lastCommand? (kind : Kind) (entries : List Entry) : Option String :=
  ((entries.filter (·.kind == kind)).getLast?).map (·.command)

/-- The menu of the entries, from a server that is called `name` unless the menu names it. -/
def ofEntries (entries : List Entry) (name : String) : Menu where
  entries
  timeout := ((lastCommand? .timeout entries).map fun c => Boot.leadingNumber c.toList).getD defaultTimeout
  serverName := ((lastCommand? .serverName entries).map (Text.cutString maxServerName)).getD name

/-- The selectable entries. -/
def choices (m : Menu) : List Entry := m.entries.filter Entry.isSelectable

def count (m : Menu) : Nat := m.choices.length

/-- Is there nothing to choose? Then the server does not serve this client. -/
def isEmpty (m : Menu) : Bool := m.choices.isEmpty

/-- The entry of a choice. -/
def entry? (m : Menu) (choice : Nat) : Option Entry :=
  if choice = 0 then none else m.choices[choice - 1]?

/-- The choice that is taken when the user takes none. -/
def default? (m : Menu) : Option Nat := (m.choices.findIdx? Entry.isDefault).map (· + 1)

/-- What the user, or the default, has chosen. -/
structure Selection where
  entry : Entry
  choice : Nat
  /-- Is it the default, whoever chose it? -/
  defaultChosen : Bool
  deriving DecidableEq, Repr

def selection? (m : Menu) (choice : Nat) : Option Selection :=
  (m.entry? choice).map fun entry => ⟨entry, choice, m.default? == some choice⟩

end Menu

end NetBoot
