/-
  NetBoot.Image.Traps — exit traps: which images are running under this program, and how they
  have left.

  A launched image may leave through the firmware's exit service instead of returning. While a
  trap stands on its handle, the first such exit is kept there, and whoever set the trap collects
  it with the token it was given. A trap set on a handle that has one replaces it, and the older
  token then collects nothing (`take_of_find?_ne`). Operations on one handle leave the others
  alone.
-/

import NetBoot.Platform
import NetBoot.Table

namespace NetBoot.Image

/-- The claim on one trap. -/
structure TrapToken where
  handle : Handle
  generation : Nat
  deriving DecidableEq, Repr

structure Trap where
  generation : Nat
  /-- The first exit since the trap was set. -/
  exit : Option Exit
  deriving DecidableEq, Repr

structure Traps where
  slots : Table Handle Trap := .empty
  /-- The number of traps set so far. -/
  generation : Nat := 0
  deriving Repr

instance : Inhabited Traps := ⟨{}⟩

/-- What becomes of an exit call. -/
inductive Disposition where
  /-- Kept; control goes back to whoever called the image. -/
  | trapped
  /-- Not ours; the firmware handles it. -/
  | delegate
  deriving DecidableEq, Repr

namespace Traps

def isInstalled (t : Traps) (h : Handle) : Bool := t.slots.contains h

def install (t : Traps) (h : Handle) : TrapToken × Traps :=
  let generation := t.generation + 1
  (⟨h, generation⟩, ⟨t.slots.insert h ⟨generation, none⟩, generation⟩)

/-- An exit call on a handle. -/
def onExit (t : Traps) (h : Handle) (exit : Exit) : Disposition × Traps :=
  match t.slots.find? h with
  | none => (.delegate, t)
  | some trap =>
    match trap.exit with
    | some _ => (.trapped, t)
    | none => (.trapped, { t with slots := t.slots.insert h { trap with exit := some exit } })

/-- The answer to an unload call on a handle; `none` leaves it to the firmware. An image under a
    trap was not loaded by the firmware, so it cannot be unloaded through it. -/
def onUnload (t : Traps) (h : Handle) : Option Status :=
  if t.isInstalled h then some .unsupported else none

/-- Takes the trap away and gives the exit it kept, if the token is the one of that trap. -/
def take (t : Traps) (token : TrapToken) : Option Exit × Traps :=
  match t.slots.find? token.handle with
  | none => (none, t)
  | some trap =>
    if trap.generation = token.generation then
      (trap.exit, { t with slots := t.slots.erase token.handle })
    else (none, t)

theorem take_of_find?_ne {t : Traps} {token : TrapToken}
    (h : ∀ trap, t.slots.find? token.handle = some trap → trap.generation ≠ token.generation) :
    t.take token = (none, t) := by
  unfold take
  split
  · rfl
  · rename_i trap htrap
    rw [if_neg (h trap htrap)]

/-! ## Diagnostics -/

private def trapTarget : String := "netchain_peimage::launch"

/-- What is noted when a trap is set. -/
def installNotes (t : Traps) (h : Handle) : List Log.Record :=
  if t.isInstalled h then [⟨.warn, trapTarget, s!"exit trap on handle {h.describe} replaced"⟩] else []

/-- What is noted about an exit call: the exit that is kept. -/
def exitNotes (t : Traps) (h : Handle) (exit : Exit) : List Log.Record :=
  match t.slots.find? h with
  | some ⟨_, none⟩ => [⟨.debug, trapTarget, s!"image {h.describe} exited with {exit.status.text}"⟩]
  | _ => []

/-! ## In a machine -/

variable {m : Type → Type} [Monad m]

def installIn (journal : Journal m) (traps : Cell m Traps) (h : Handle) : m TrapToken := do
  let t ← traps.get
  journal.logAll (t.installNotes h)
  let (token, t') := t.install h
  traps.set t'
  return token

def onExitIn (journal : Journal m) (traps : Cell m Traps) (h : Handle) (exit : Exit) : m Disposition := do
  let t ← traps.get
  journal.logAll (t.exitNotes h exit)
  let (disposition, t') := t.onExit h exit
  traps.set t'
  return disposition

def takeIn (traps : Cell m Traps) (token : TrapToken) : m (Option Exit) := do
  let t ← traps.get
  let (exit, t') := t.take token
  traps.set t'
  return exit

end Traps

end NetBoot.Image
