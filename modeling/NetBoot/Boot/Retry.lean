/-
  NetBoot.Boot.Retry — repeating a menu request after a random wait.

  A server that does not answer is most likely busy, so clients that started together must not
  ask again together: each draws its waits from a generator seeded with its hardware address. The
  generator multiplies by 40014 modulo 2147483563, done so that no intermediate value leaves 32
  bits by much. Escape during a wait gives up.
-/

import NetBoot.Boot.Session
import NetBoot.Boot.Server
import NetBoot.Menu.File
import NetBoot.Menu.Screen

namespace NetBoot.Boot

structure Rng where
  seed : Int32
  state : Int
  deriving DecidableEq, Repr

namespace Rng

def modulus : Int := 2147483563

def ofSeed (seed : Int32) : Rng := ⟨seed, seed.toInt⟩

/-- The seed of a client: the first four bytes of its address, least significant first. -/
def ofMac (mac : Net.Mac) : Rng :=
  ofSeed (Int32.ofNat (leNat (mac.bytes.toList.take 4)))

/-- The state after `s`: 40014 s modulo the modulus, by way of the quotient by 53668. -/
def step (s : Int) : Int :=
  let q := s.tdiv 53668
  let t := 40014 * (s - 53668 * q) - 12211 * q
  if t < 0 then t + modulus else t

def next (g : Rng) : Int × Rng := (step g.state, { g with state := step g.state })

/-- The wait when none can be drawn. -/
def fallbackDelay : Nat := 10000

/-- The next wait in milliseconds: a second at least, `maxSeconds` at most. -/
def nextDelay (g : Rng) (maxSeconds : Nat) : Nat × Rng :=
  if g.seed = 0 ∨ maxSeconds = 0 then (fallbackDelay, g)
  else
    let limit : Int := maxSeconds * 1000
    let (v, g) := g.next
    let delay := min (max (1 + v % limit) 1000) limit
    (if delay.toNat < UInt32.size then delay.toNat else fallbackDelay, g)

/-- The seed in eight digits. -/
def seedText (g : Rng) : String := Text.hexPadded 8 g.seed.toUInt32.toNat

end Rng

variable {m : Type → Type} [Monad m]

/-- Reads keys until the deadline or until `key`, at most `reads` of them. Did it come? -/
def waitUntil (c : Console m) (key : Key) (deadline : Nat) : Nat → m Bool
  | 0 => return false
  | reads + 1 => do
    let now := (← c.ticks).toNat
    if deadline ≤ now then return false
    else if (← c.readKey (UInt32.ofNat (min (deadline - now) (UInt32.size - 1)))) = some key then return true
    else waitUntil c key deadline reads

/-- Waits for `key` for so many milliseconds; other keys are ignored. Did it come? -/
def waitForKey (c : Console m) (key : Key) (delay : UInt32) : m Bool := do
  let start := (← c.ticks).toNat
  waitUntil c key (start + delay.toNat) ((← c.keysAhead) + 2)

structure RetryPolicy where
  /-- Requests after the first. -/
  retries : Nat
  /-- The longest wait in seconds. -/
  maxDelay : Nat := 20
  deriving DecidableEq, Repr

private def retryTarget : String := "netchain_pxe::retry"

/-- Repeats the request while it fails, with a wait before each repetition. -/
def retryMenu (s : Session m) (server : Server) (architecture : UInt16) (maxDelay : Nat) :
    Nat → Rng → Except BootError Bytes → m (Except BootError Bytes)
  | 0, _, result => return result
  | _ + 1, _, .ok bytes => return .ok bytes
  | retries + 1, g, .error e => do
    s.host.toFirmware.debug retryTarget s!"menu request to {server.address.text} failed: {e.message}"
    let (delay, g) := g.nextDelay maxDelay
    s.say ["Did not get menu, retrying in ", s!"{delay / 1000}", ".",
      s!"{delay % 1000 / 100}{delay % 100 / 10}{delay % 10}", " seconds (Press ESC to abort)...\n"]
    if ← waitForKey s.host.toConsole .escape (UInt32.ofNat delay) then
      s.say ["\nEsc Pressed. Aborting retry...\n"]
      return .error e
    else retryMenu s server architecture maxDelay retries g (← server.menu s.host.toNetwork architecture)

/-- Fetches the menu file of a server. -/
def fetchMenu (s : Session m) (server : Server) (architecture : UInt16) (policy : RetryPolicy) :
    m (Except BootError Bytes) := do
  let g := Rng.ofMac server.mac
  if 0 < policy.retries then
    s.say ["Retries: ", s!"{policy.retries}", ", Max delay between retries: ", s!"{policy.maxDelay}",
      " seconds\n"]
    s.sayDebug ["Random seed: ", g.seedText, "\n"]
  retryMenu s server architecture policy.maxDelay policy.retries g
    (← server.menu s.host.toNetwork architecture)

/-- Fetches and reads the menu of a server. -/
def loadMenu (s : Session m) (server : Server) (architecture : UInt16) (policy : RetryPolicy)
    (name : String) : m (Except BootError Menu) := do
  s.say ["Trying to load menu file\n"]
  match ← fetchMenu s server architecture policy with
  | .error e => return .error e
  | .ok data => do
    let records := Menu.File.read data
    s.host.toFirmware.logAll (Menu.File.notes records)
    s.debugDelay 5
    match Menu.File.outcome records with
    | .error e => return .error e
    | .ok entries => do
      let menu := Menu.ofEntries entries name
      if menu.isEmpty then s.say [menu.serverName, " doesn't care about us.\n"]
      return .ok menu

end NetBoot.Boot
