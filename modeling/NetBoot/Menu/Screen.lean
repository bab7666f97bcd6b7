/-
  NetBoot.Menu.Screen — the menu on the screen: a countdown that F8 interrupts, and the list of
  choices.

  The countdown reads one key a second and ends with the first one, or when the time is up. The
  list is redrawn before every key: arrows move the highlight and wrap around, a digit chooses,
  enter takes the highlighted line, anything else is ignored.
-/

import NetBoot.Boot.Session
import NetBoot.Menu.Choices

namespace NetBoot.Menu

variable {m : Type → Type} [Monad m]

private def screenTarget : String := "netchain_pxe::menu"

/-- The name in the screen header. -/
def appName : String := "netchain UEFI PXE Boot Loader"

/-- The version in the screen header. -/
def version : String := "0.1.0"

/-- Opens the list from the countdown. -/
def listKey : Key := .function 8

def drawHeader (host : Host m) : m Unit := do
  host.setCursor 0 0
  host.setHighlight true
  host.say ["\n ", appName, " \n"]
  host.setHighlight false
  host.say [" Version ", version, "\n\n"]

/-- Reads keys, showing the seconds left at a place of the screen, until there is a key or no
    second is left. With no time limit it reads once and waits for the key. -/
def countdown (host : Host m) (column row : Nat) (wait : UInt32) : Nat → m (Option Key)
  | 0 => do
    host.setCursor column row
    host.say ["(", "0", ") "]
    host.readKey wait
  | seconds + 1 => do
    host.setCursor column row
    host.say ["(", s!"{seconds + 1}", ") "]
    match ← host.readKey wait with
    | some key => return some key
    | none => if seconds = 0 then return none else countdown host column row wait seconds

/-- Shows the countdown. Did the user ask for the list? -/
def prompt (menu : Menu) (host : Host m) : m Bool := do
  host.clear
  drawHeader host
  host.say [" PXE BootClient [Server: ", menu.serverName, "] "]
  let (column, row) ← host.cursor
  let key ← countdown host column row (if menu.timeout = 0 then 0 else 1000) menu.timeout
  host.setCursor column row
  host.say ["     "]
  return key == some listKey

/-- The number of a choice in two columns. -/
def numberText (n : Nat) : String := if n < 10 then s!" {n}" else s!"{n}"

/-- Draws the entries from number `index` on, the next choice being `number`. -/
def drawEntries (host : Host m) (highlight : Nat) : Nat → Nat → List Entry → m Unit
  | _, _, [] => pure ()
  | index, number, e :: r => do
    if e.isSelectable then
      host.setHighlight (number == highlight)
      host.say [" ", numberText number, ": ", e.text, " \n"]
      host.setHighlight false
      drawEntries host highlight (index + 1) (number + 1) r
    else if e.kind = .text then
      host.say [e.text, "\n"]
      drawEntries host highlight (index + 1) number r
    else
      host.toFirmware.trace screenTarget s!"menu entry {index} not shown"
      drawEntries host highlight (index + 1) number r

def draw (menu : Menu) (host : Host m) (highlight : Nat) : m Unit := do
  drawHeader host
  drawEntries host highlight 0 1 menu.entries

/-- What a key does to the list. -/
inductive Move where
  | choose (choice : Nat)
  | highlight (choice : Nat)
  deriving DecidableEq, Repr

/-- What a key means in a list of `count` choices with one highlighted. -/
def move (count highlight : Nat) : Option Key → Move
  | some .enter => .choose highlight
  | some .up => .highlight (if highlight ≤ 1 then count else highlight - 1)
  | some .down => .highlight (if count ≤ highlight then 1 else highlight + 1)
  | some key =>
    match key.digit? with
    | some d => if 1 ≤ d ∧ d ≤ count then .choose d else .highlight highlight
    | none => .highlight highlight
  | none => .highlight highlight

/-- Draws the list and takes a key until one chooses. -/
def chooseFrom (menu : Menu) (host : Host m) : Nat → Nat → m Nat
  | 0, highlight => return highlight
  | reads + 1, highlight => do
    menu.draw host highlight
    match move menu.count highlight (← host.readKey 0) with
    | .choose choice => return choice
    | .highlight choice => chooseFrom menu host reads choice

/-- Shows the list and lets the user choose. -/
def interactive (menu : Menu) (host : Host m) : m Nat := do
  host.clear
  let choice ← chooseFrom menu host ((← host.keysAhead) + 1) (menu.default?.getD 1)
  host.say ["\n"]
  return choice

/-- Asks the user. There is no answer when there is nothing to choose, or when the time is up and
    there is no default. -/
def select (menu : Menu) (host : Host m) : m (Option Selection) := do
  if menu.isEmpty then return none
  else if ← menu.prompt host then return menu.selection? (← menu.interactive host)
  else return menu.default?.bind menu.selection?

end NetBoot.Menu
