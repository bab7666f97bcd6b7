/-
  NetBoot.Proofs.Lifting.Client — what holds between two sessions service by service, holds
  between what a client does in them.

  Two sessions on one host may differ in whether diagnostics are shown. Suppose that a relation
  between computations goes through sequences (`Paired`) and holds between each service and itself,
  between what the two sessions say in debug mode, and between their delays there (`Attends`). Then it
  holds between any function of the client in the one session and in the other; the requests are
  the ones that have to be asked for (`asks`).

  The relation comes at a price in milliseconds, so that one about clocks can be had for runs that
  are not too long: a wait costs its time, everything else is free.
-/

import NetBoot.Boot.Sequence
import NetBoot.Proofs.Lifting.Loader

namespace NetBoot

variable {m : Type → Type} [Monad m]

/-- A relation that sequences have, at a price, when their parts have it, at prices that come to that. -/
structure Paired (R : {α : Type} → Nat → m α → m α → Prop) : Prop where
  pure {α : Type} (a : α) : R 0 (Pure.pure a : m α) (Pure.pure a)
  bind {α β : Type} {s t : Nat} {x y : m α} {f g : α → m β} :
    R s x y → (∀ a, R t (f a) (g a)) → R (s + t) (x >>= f) (y >>= g)
  mono {α : Type} {s t : Nat} {x y : m α} : s ≤ t → R s x y → R t x y

namespace Paired

variable {R : {α : Type} → Nat → m α → m α → Prop} (h : Paired @R)

include h

theorem done {α : Type} {t : Nat} (a : α) : R t (Pure.pure a : m α) (Pure.pure a) := h.mono (Nat.zero_le t) (h.pure a)

/-- A part that is free, and then the rest. -/
theorem seq {α β : Type} {t : Nat} {x y : m α} {f g : α → m β} (hx : R 0 x y) (hf : ∀ a, R t (f a) (g a)) :
    R t (x >>= f) (y >>= g) := Nat.zero_add t ▸ h.bind hx hf

/-- A part that has its price, and then the rest for free. -/
theorem spend {α β : Type} {t : Nat} {x y : m α} {f g : α → m β} (hx : R t x y) (hf : ∀ a, R 0 (f a) (g a)) :
    R t (x >>= f) (y >>= g) := h.bind hx hf

/-- A part that has its price, and then the rest for what is left. -/
theorem pay {α β : Type} {t u : Nat} {x y : m α} {f g : α → m β} (s : Nat) (hx : R s x y) (hle : s + t ≤ u)
    (hf : ∀ a, R t (f a) (g a)) : R u (x >>= f) (y >>= g) := h.mono hle (h.bind hx hf)

theorem composed : Composed fun {α : Type} (x : m α) => R 0 x x := ⟨h.pure, fun hx hf => h.seq hx hf⟩

end Paired

open Boot

/-- What is done with a program once it is fetched. -/
def Boot.Chainloader.startFetched (c : Chainloader) (s : Session m) (traps : Cell m Image.Traps) (path : String)
    (raw : Bytes) : m (Except BootError Exit) := do
  match ← Chainloader.context s.host.toFirmware path with
  | .error e => return .error e
  | .ok context =>
    match ← c.start s traps raw context with
    | .error e => return .error e
    | .ok exit => Chainloader.conclude s path exit

/-- What is said in two sessions on a host. -/
structure Speaks (R : {α : Type} → Nat → m α → m α → Prop) (h : Host m) (d d' : Bool) : Prop extends Paired @R where
  log (r : Log.Record) : R 0 (h.log r) (h.log r)
  print (text : String) : R 0 (h.print text) (h.print text)
  sayDebug (pieces : List String) : R 0 (Session.sayDebug ⟨h, d⟩ pieces) (Session.sayDebug ⟨h, d'⟩ pieces)
  debugDelay (seconds : Nat) :
    R (seconds * 1000) (Session.debugDelay ⟨h, d⟩ seconds) (Session.debugDelay ⟨h, d'⟩ seconds)

section Speaks

variable {R : {α : Type} → Nat → m α → m α → Prop} {h : Host m} {d d' : Bool}

theorem Paired.say (hR : Paired @R) (hprint : ∀ text, R 0 (h.print text) (h.print text)) (pieces : List String) :
    R 0 (h.toConsole.say pieces) (h.toConsole.say pieces) := by
  induction pieces with
  | nil => exact hR.pure ()
  | cons piece pieces ih => exact hR.seq (hprint piece) fun _ => ih

/-- In one session, and the same one again, there is no more to it than notes, text and pauses. -/
theorem Paired.speaks (hR : Paired @R) (hlog : ∀ r, R 0 (h.log r) (h.log r))
    (hprint : ∀ text, R 0 (h.print text) (h.print text))
    (hsleep : ∀ ms : UInt32, R ms.toNat (h.sleep ms) (h.sleep ms)) :
    Speaks @R h d d where
  toPaired := hR
  log := hlog
  print := hprint
  sayDebug pieces := by
    unfold Session.sayDebug
    split
    · exact hR.say hprint pieces
    · exact hR.pure ()
  debugDelay seconds := by
    have hms : (UInt32.ofNat (seconds * 1000)).toNat ≤ seconds * 1000 := by
      rw [UInt32.toNat_ofNat']
      exact Nat.mod_le _ _
    unfold Session.debugDelay
    split
    · exact hR.seq (hR.say hprint _) fun _ => hR.mono hms (hsleep _)
    · exact hR.done ()

end Speaks

/-- The services that a client uses in two sessions on a host, with requests for these files. -/
structure Attends (asks : Net.Ipv4 → String → Prop) (R : {α : Type} → Nat → m α → m α → Prop) (h : Host m)
    (d d' : Bool) : Prop extends Speaks @R h d d' where
  clear : R 0 h.clear h.clear
  cursor : R 0 h.cursor h.cursor
  setCursor (column row : Nat) : R 0 (h.setCursor column row) (h.setCursor column row)
  setHighlight (on : Bool) : R 0 (h.setHighlight on) (h.setHighlight on)
  readKey (timeout : UInt32) : R timeout.toNat (h.readKey timeout) (h.readKey timeout)
  sleep (ms : UInt32) : R ms.toNat (h.sleep ms) (h.sleep ms)
  keysAhead : R 0 h.keysAhead h.keysAhead
  /-- The one wait that looks at the clock. -/
  waitForKey (key : Key) (delay : UInt32) :
    R delay.toNat (waitForKey h.toConsole key delay) (waitForKey h.toConsole key delay)
  clientMac : R 0 h.clientMac h.clientMac
  discoverPacket : R 0 h.discoverPacket h.discoverPacket
  systemUuid : R 0 h.systemUuid h.systemUuid
  reserve (len : Nat) : R 0 (h.reserve len) (h.reserve len)
  fileSize {server : Net.Ipv4} {name : String} :
    asks server name → R 0 (h.fileSize server name) (h.fileSize server name)
  receiveFile {server : Net.Ipv4} {name : String} (len : Nat) :
    asks server name → R 0 (h.receiveFile server name len) (h.receiveFile server name len)

namespace Speaks

variable {R : {α : Type} → Nat → m α → m α → Prop} {h : Host m} {d d' : Bool} (hR : Speaks @R h d d')

include hR

theorem logAll (rs : List Log.Record) : R 0 (Journal.logAll h.toJournal rs) (Journal.logAll h.toJournal rs) := by
  induction rs with
  | nil => exact hR.pure ()
  | cons r rs ih => exact hR.seq (hR.log r) fun _ => ih

theorem hostSay (pieces : List String) : R 0 (h.toConsole.say pieces) (h.toConsole.say pieces) :=
  hR.toPaired.say hR.print pieces

theorem say (pieces : List String) : R 0 (Session.say ⟨h, d⟩ pieces) (Session.say ⟨h, d'⟩ pieces) := hR.hostSay pieces

/-! ## Running a program -/

theorem conclude (path : String) (exit : Exit) :
    R 0 (Chainloader.conclude ⟨h, d⟩ path exit) (Chainloader.conclude ⟨h, d'⟩ path exit) := by
  unfold Chainloader.conclude
  split
  · exact hR.pure _
  · exact hR.seq (hR.log _) fun _ => hR.pure _

variable {traps : Cell m Image.Traps} (hS : Served (fun {α : Type} (x : m α) => R 0 x x) h.toFirmware traps)

include hS

theorem startLoaded (image : Handle) (context : Image.LaunchContext) :
    R 0 (Chainloader.startLoaded ⟨h, d⟩ image context) (Chainloader.startLoaded ⟨h, d'⟩ image context) := by
  refine hR.seq (hS.loadedImage image) fun r => ?_
  cases r with
  | error e => exact hR.pure _
  | ok found =>
    refine hR.seq (hR.sayDebug _) fun _ => hR.seq (hS.setLoadedImage _ _) fun r => ?_
    cases r with
    | error e => exact hR.pure _
    | ok u =>
      refine hR.seq (hS.startImage _) fun exit => hR.seq (hS.unloadImage _) fun status => ?_
      split
      · exact hR.seq (hR.log _) fun _ => hR.pure _
      · exact hR.pure _

theorem startByFirmware (raw : Bytes) (context : Image.LaunchContext) :
    R 0 (Chainloader.startByFirmware ⟨h, d⟩ raw context) (Chainloader.startByFirmware ⟨h, d'⟩ raw context) := by
  refine hR.seq (hS.select {} raw) fun r => ?_
  cases r with
  | error e => exact hR.pure _
  | ok part =>
    refine hR.seq (hS.loadImage _ _ _) fun r => ?_
    cases r with
    | error status => exact hR.seq (hR.log _) fun _ => hR.pure _
    | ok image => exact hR.startLoaded hS image context

theorem start (c : Chainloader) (raw : Bytes) (context : Image.LaunchContext) :
    R 0 (c.start ⟨h, d⟩ traps raw context) (c.start ⟨h, d'⟩ traps raw context) := by
  unfold Chainloader.start
  dsimp only
  cases c.strategy with
  | core => exact hR.seq (hS.loadAndLaunch _ raw context) fun _ => hR.pure _
  | firmware =>
    refine hR.seq (hS.mustValidate _) fun checked => ?_
    cases checked with
    | true => exact hR.seq (hS.launchValidated _ raw context) fun _ => hR.pure _
    | false => exact hR.startByFirmware hS raw context

theorem context (path : String) :
    R 0 (Chainloader.context h.toFirmware path) (Chainloader.context h.toFirmware path) := by
  refine hR.seq hS.imageHandle fun handle => hR.seq (hS.loadedImage handle) fun r => ?_
  cases r with
  | error e => exact hR.pure _
  | ok record => exact hR.seq (hS.devicePath _) fun _ => hR.pure _

theorem startFetched (c : Chainloader) (path : String) (raw : Bytes) :
    R 0 (c.startFetched ⟨h, d⟩ traps path raw) (c.startFetched ⟨h, d'⟩ traps path raw) := by
  refine hR.seq (hR.context hS path) fun r => ?_
  cases r with
  | error e => exact hR.pure _
  | ok context =>
    refine hR.seq (hR.start hS c raw context) fun r => ?_
    cases r with
    | error e => exact hR.pure _
    | ok exit => exact hR.conclude path exit

end Speaks

namespace Attends

variable {asks : Net.Ipv4 → String → Prop} {R : {α : Type} → Nat → m α → m α → Prop} {h : Host m} {d d' : Bool}
  (hR : Attends asks @R h d d')

include hR

/-! ## The menu on the screen -/

theorem drawHeader : R 0 (Menu.drawHeader h) (Menu.drawHeader h) :=
  hR.seq (hR.setCursor 0 0) fun _ => hR.seq (hR.setHighlight true) fun _ => hR.seq (hR.hostSay _) fun _ =>
    hR.seq (hR.setHighlight false) fun _ => hR.hostSay _

theorem countdown (column row : Nat) (wait : UInt32) (seconds : Nat) :
    R ((seconds + 1) * wait.toNat) (Menu.countdown h column row wait seconds)
      (Menu.countdown h column row wait seconds) := by
  induction seconds with
  | zero =>
    rw [Nat.zero_add, Nat.one_mul]
    exact hR.seq (hR.setCursor _ _) fun _ => hR.seq (hR.hostSay _) fun _ => hR.readKey wait
  | succ seconds ih =>
    refine hR.seq (hR.setCursor _ _) fun _ => hR.seq (hR.hostSay _) fun _ => ?_
    refine hR.pay (t := (seconds + 1) * wait.toNat) _ (hR.readKey wait) ?_ fun key => ?_
    · exact Nat.le_of_eq (by rw [Nat.succ_mul (seconds + 1), Nat.add_comm])
    · cases key with
      | some key => exact hR.done _
      | none =>
        dsimp only
        split
        · exact hR.done _
        · exact ih

theorem prompt (menu : Menu) : R ((menu.timeout + 1) * 1000) (menu.prompt h) (menu.prompt h) := by
  refine hR.seq hR.clear fun _ => hR.seq hR.drawHeader fun _ => hR.seq (hR.hostSay _) fun _ => ?_
  refine hR.seq hR.cursor fun (column, row) => ?_
  refine hR.pay (t := 0) _ (hR.countdown column row _ menu.timeout) ?_ fun key => ?_
  · refine Nat.mul_le_mul_left _ ?_
    split
    · exact Nat.zero_le _
    · exact Nat.le_refl _
  · exact hR.seq (hR.setCursor _ _) fun _ => hR.seq (hR.hostSay _) fun _ => hR.pure _

theorem drawEntries (highlight index number : Nat) (entries : List Menu.Entry) :
    R 0 (Menu.drawEntries h highlight index number entries) (Menu.drawEntries h highlight index number entries) := by
  induction entries generalizing index number with
  | nil => exact hR.pure ()
  | cons e entries ih =>
    unfold Menu.drawEntries
    split
    · refine hR.seq (hR.setHighlight _) fun _ => hR.seq (hR.hostSay _) fun _ => ?_
      exact hR.seq (hR.setHighlight _) fun _ => ih _ _
    · split
      · exact hR.seq (hR.hostSay _) fun _ => ih _ _
      · exact hR.seq (hR.log _) fun _ => ih _ _

theorem draw (menu : Menu) (highlight : Nat) : R 0 (menu.draw h highlight) (menu.draw h highlight) :=
  hR.seq hR.drawHeader fun _ => hR.drawEntries _ _ _ _

theorem chooseFrom (menu : Menu) (reads highlight : Nat) :
    R 0 (menu.chooseFrom h reads highlight) (menu.chooseFrom h reads highlight) := by
  induction reads generalizing highlight with
  | zero => exact hR.pure _
  | succ reads ih =>
    refine hR.seq (hR.draw menu highlight) fun _ => hR.seq (hR.readKey 0) fun key => ?_
    cases Menu.move menu.count highlight key with
    | choose choice => exact hR.pure _
    | highlight choice => exact ih choice

theorem interactive (menu : Menu) : R 0 (menu.interactive h) (menu.interactive h) :=
  hR.seq hR.clear fun _ => hR.seq hR.keysAhead fun _ => hR.seq (hR.chooseFrom menu _ _) fun _ =>
    hR.seq (hR.hostSay _) fun _ => hR.pure _

theorem select (menu : Menu) : R ((menu.timeout + 1) * 1000) (menu.select h) (menu.select h) := by
  unfold Menu.select
  split
  · exact hR.done _
  · refine hR.spend (hR.prompt menu) fun listed => ?_
    cases listed with
    | true => exact hR.seq (hR.interactive menu) fun _ => hR.pure _
    | false => exact hR.pure _

/-! ## Requests -/

theorem read {server : Net.Ipv4} {name : String} (hs : asks server name) (size : UInt64) :
    R 0 (Transfer.read h.toNetwork server name size) (Transfer.read h.toNetwork server name size) := by
  refine hR.seq (hR.reserve _) fun reserved => ?_
  split
  · refine hR.seq (hR.receiveFile _ hs) fun r => ?_
    obtain ⟨e | count, buffer⟩ := r
    · exact hR.seq (hR.log _) fun _ => hR.pure _
    · exact hR.seq (hR.log _) fun _ => hR.pure _
  · exact hR.pure _

theorem fetch {server : Net.Ipv4} {name : String} (hs : asks server name) :
    R 0 (Transfer.fetch h.toNetwork server name) (Transfer.fetch h.toNetwork server name) := by
  refine hR.seq (hR.fileSize hs) fun r => ?_
  cases r with
  | error e => exact hR.seq (hR.log _) fun _ => hR.pure _
  | ok size => exact hR.read hs size

section Requests

variable {server : Server} {action : Action} (hs : asks server.address (requestName server.mac server.uuid action))

include hs

theorem request : R 0 (server.fetch h.toNetwork action) (server.fetch h.toNetwork action) :=
  hR.seq (hR.log _) fun _ => hR.fetch hs

theorem command : R 0 (server.command h.toNetwork action) (server.command h.toNetwork action) := by
  refine hR.seq (hR.request hs) fun r => ?_
  cases r with
  | error e => exact hR.pure _
  | ok body =>
    dsimp only
    split
    · exact hR.pure _
    · exact hR.seq (hR.log _) fun _ => hR.pure _

theorem tell : R 0 (Boot.tell ⟨h, d⟩ server action) (Boot.tell ⟨h, d'⟩ server action) := by
  refine hR.seq (hR.command hs) fun r => ?_
  cases r with
  | ok u => exact hR.pure _
  | error e => exact hR.say _

end Requests

/-! ## The menu of a server -/

/-- The longest wait that is drawn, in milliseconds. -/
def longestWait (maxDelay : Nat) : Nat := max Rng.fallbackDelay (maxDelay * 1000)

omit hR in
theorem nextDelay_le (g : Rng) (maxDelay : Nat) : (g.nextDelay maxDelay).1 ≤ longestWait maxDelay := by
  unfold Rng.nextDelay longestWait
  split
  · exact Nat.le_max_left _ _
  · dsimp only
    split
    · refine Nat.le_trans ?_ (Nat.le_max_right _ _)
      omega
    · exact Nat.le_max_left _ _

section Menus

variable (server : Server) {architecture : UInt16}
  (hs : asks server.address (requestName server.mac server.uuid (.menu architecture)))

include hs

theorem retryMenu (maxDelay retries : Nat) (g : Rng) (result : Except BootError Bytes) :
    R (retries * longestWait maxDelay) (Boot.retryMenu ⟨h, d⟩ server architecture maxDelay retries g result)
      (Boot.retryMenu ⟨h, d'⟩ server architecture maxDelay retries g result) := by
  induction retries generalizing g result with
  | zero => exact hR.done _
  | succ retries ih =>
    cases result with
    | ok bytes => exact hR.done _
    | error e =>
      unfold Boot.retryMenu
      refine hR.seq (hR.log _) fun _ => ?_
      dsimp only
      refine hR.seq (hR.say _) fun _ => ?_
      refine hR.pay (t := retries * longestWait maxDelay) _ (hR.waitForKey _ _) ?_ fun escaped => ?_
      · have hle := nextDelay_le g maxDelay
        have hmod := Nat.mod_le (g.nextDelay maxDelay).1 UInt32.size
        have hofNat : (UInt32.ofNat (g.nextDelay maxDelay).1).toNat = (g.nextDelay maxDelay).1 % UInt32.size :=
          UInt32.toNat_ofNat'
        rw [Nat.succ_mul]
        omega
      · cases escaped with
        | true => exact hR.seq (hR.say _) fun _ => hR.done _
        | false => exact hR.seq (hR.request hs) fun _ => ih _ _

theorem fetchMenu (policy : RetryPolicy) :
    R (policy.retries * longestWait policy.maxDelay) (Boot.fetchMenu ⟨h, d⟩ server architecture policy)
      (Boot.fetchMenu ⟨h, d'⟩ server architecture policy) := by
  unfold Boot.fetchMenu
  dsimp only
  split
  · refine hR.seq (hR.say _) fun _ => hR.seq (hR.sayDebug _) fun _ => ?_
    exact hR.seq (hR.request hs) fun _ => hR.retryMenu server hs _ _ _ _
  · exact hR.seq (hR.request hs) fun _ => hR.retryMenu server hs _ _ _ _

end Menus

/-! ## The servers -/

omit hR in
theorem timeout_ofEntries_lt (entries : List Menu.Entry) (name : String) :
    (Menu.ofEntries entries name).timeout < UInt32.size := by
  show ((Menu.lastCommand? .timeout entries).map _).getD Menu.defaultTimeout < _
  cases Menu.lastCommand? .timeout entries with
  | none => decide
  | some command =>
    show min _ (UInt32.size - 1) < UInt32.size
    have : 0 < UInt32.size := by decide
    omega

omit hR in
/-- A server is asked by loading its menu and choosing from what was read. -/
theorem askServer_eq [LawfulMonad m] (s : Session m) (identity : Identity) (policy : RetryPolicy)
    (address : Net.Ipv4) :
    askServer s identity policy address = (do
      s.say ["Trying to load menu file\n"]
      match ← Boot.fetchMenu s ⟨address, identity.mac, identity.uuid⟩ identity.architecture policy with
      | .error e => do
        s.sayDebug ["menu from ", address.text, ": ", e.message, "\n"]
        return none
      | .ok data => do
        s.host.toFirmware.logAll (Menu.File.notes (Menu.File.read data))
        s.debugDelay 5
        match Menu.File.outcome (Menu.File.read data) with
        | .error e => do
          s.sayDebug ["menu from ", address.text, ": ", e.message, "\n"]
          return none
        | .ok entries => do
          if (Menu.ofEntries entries address.text).isEmpty then
            s.say [(Menu.ofEntries entries address.text).serverName, " doesn't care about us.\n"]
          (Menu.ofEntries entries address.text).select s.host) := by
  unfold askServer Boot.loadMenu
  simp only [bind_assoc]
  refine congrArg (Bind.bind _) (funext fun _ => congrArg (Bind.bind _) (funext fun fetched => ?_))
  cases fetched with
  | error e => simp
  | ok data =>
    simp only [bind_assoc]
    refine congrArg (Bind.bind _) (funext fun _ => congrArg (Bind.bind _) (funext fun _ => ?_))
    cases Menu.File.outcome (Menu.File.read data) with
    | error e => simp
    | ok entries =>
      dsimp only
      split
      · simp
      · simp

/-- The time that a server may take. -/
def turnTime (policy : RetryPolicy) : Nat := policy.retries * longestWait policy.maxDelay + 5000 + UInt32.size * 1000

theorem askServer [LawfulMonad m] {identity : Identity} {address : Net.Ipv4}
    (hs : asks address (requestName identity.mac identity.uuid (.menu identity.architecture))) (policy : RetryPolicy) :
    R (turnTime policy) (Boot.askServer ⟨h, d⟩ identity policy address)
      (Boot.askServer ⟨h, d'⟩ identity policy address) := by
  rw [askServer_eq, askServer_eq]
  refine hR.seq (hR.say _) fun _ => ?_
  refine hR.pay (t := 5000 + UInt32.size * 1000) _
    (hR.fetchMenu ⟨address, identity.mac, identity.uuid⟩ hs policy) ?_ fun r => ?_
  · exact Nat.le_of_eq (by rw [turnTime, Nat.add_assoc])
  cases r with
  | error e => exact hR.seq (hR.sayDebug _) fun _ => hR.done _
  | ok data =>
    refine hR.seq (hR.logAll _) fun _ => hR.bind (hR.debugDelay 5) fun _ => ?_
    cases Menu.File.outcome (Menu.File.read data) with
    | error e => exact hR.seq (hR.sayDebug _) fun _ => hR.done _
    | ok entries =>
      have hselect := hR.mono (Nat.mul_le_mul_right 1000 (timeout_ofEntries_lt entries address.text))
        (hR.select (.ofEntries entries address.text))
      dsimp only
      split
      · exact hR.seq (hR.say _) fun _ => hselect
      · exact hselect

section Servers

variable (hresolve : ∀ name, R 0 (h.resolveHost name) (h.resolveHost name))

include hresolve

theorem retryLookup (name : String) (retries : Nat) (result : Except ServiceError Net.Ipv4) :
    R (retries * 1000) (Boot.retryLookup ⟨h, d⟩ name retries result)
      (Boot.retryLookup ⟨h, d'⟩ name retries result) := by
  induction retries generalizing result with
  | zero => exact hR.done _
  | succ retries ih =>
    cases result with
    | ok address => exact hR.done _
    | error e =>
      cases e with
      | notReady =>
        refine hR.pay (t := retries * 1000) _ (hR.sleep 1000) ?_ fun _ =>
          hR.seq (hresolve name) fun _ => ih _
        rw [Nat.succ_mul, Nat.add_comm]
        exact Nat.le_refl _
      | _ => exact hR.done _

theorem resolve (dhcpServer : Net.Ipv4) (name : String) :
    R 10000 (Boot.resolve ⟨h, d⟩ dhcpServer name) (Boot.resolve ⟨h, d'⟩ dhcpServer name) := by
  unfold Boot.resolve
  split
  · exact hR.done _
  · cases Net.Ipv4.parse? name with
    | some address => exact hR.done _
    | none =>
      refine hR.seq (hresolve name) fun result => ?_
      refine hR.spend (hR.retryLookup hresolve name lookupRetries result) fun r => ?_
      cases r with
      | ok address => exact hR.pure _
      | error e => exact hR.seq (hR.log _) fun _ => hR.pure _

variable {identity : Identity}
  (hs : ∀ address, asks address (requestName identity.mac identity.uuid (.menu identity.architecture)))

include hs

theorem selectFrom [LawfulMonad m] (dhcpServer : Net.Ipv4) (policy : RetryPolicy) (number : Nat) (list : List String) :
    R (list.length * (10000 + turnTime policy)) (Boot.selectFrom ⟨h, d⟩ dhcpServer identity policy number list)
      (Boot.selectFrom ⟨h, d'⟩ dhcpServer identity policy number list) := by
  induction list generalizing number with
  | nil => exact hR.seq (hR.say _) fun _ => hR.done _
  | cons name list ih =>
    unfold Boot.selectFrom
    refine hR.pay (t := turnTime policy + list.length * (10000 + turnTime policy)) _
      (hR.resolve hresolve dhcpServer name) ?_ fun r => ?_
    · rw [List.length_cons, Nat.succ_mul]
      omega
    have hrest : R (turnTime policy + list.length * (10000 + turnTime policy))
        (Boot.selectFrom ⟨h, d⟩ dhcpServer identity policy (number + 1) list)
        (Boot.selectFrom ⟨h, d'⟩ dhcpServer identity policy (number + 1) list) :=
      hR.mono (Nat.le_add_left _ _) (ih (number + 1))
    cases r with
    | error e => exact hR.seq (hR.sayDebug _) fun _ => hrest
    | ok address =>
      dsimp only
      split
      · exact hR.seq (hR.sayDebug _) fun _ => hrest
      · refine hR.seq (hR.say _) fun _ => hR.bind (hR.askServer (hs address) policy) fun chosen => ?_
        cases chosen with
        | some selection => exact hR.done _
        | none => exact ih (number + 1)

end Servers

/-! ## Around the selection -/

theorem announcedArchitecture :
    R 0 (Boot.announcedArchitecture h.toNetwork) (Boot.announcedArchitecture h.toNetwork) := by
  refine hR.seq hR.discoverPacket fun r => ?_
  cases r with
  | error e => exact hR.seq (hR.log _) fun _ => hR.pure _
  | ok packet => exact hR.pure _

theorem identify : R 0 (Boot.identify ⟨h, d⟩) (Boot.identify ⟨h, d'⟩) := by
  refine hR.seq hR.clientMac fun r => ?_
  cases r with
  | error e => exact hR.pure _
  | ok mac =>
    refine hR.seq (hR.sayDebug _) fun _ => hR.seq hR.announcedArchitecture fun r => ?_
    cases r with
    | error e => exact hR.pure _
    | ok architecture => exact hR.seq (hR.sayDebug _) fun _ => hR.seq hR.systemUuid fun _ => hR.pure _

theorem refuse (what : String) (e : BootError) (reason : String) :
    R 5000 (Client.refuse h what e reason) (Client.refuse h what e reason) :=
  hR.seq (hR.hostSay _) fun _ => hR.spend (hR.sleep 5000) fun _ => hR.pure _

/-- The configuration file is read. -/
theorem configuration {server : Net.Ipv4} (hs : asks server Config.fileName) :
    R 0 (PropertyList.fetch h.toNetwork server) (PropertyList.fetch h.toNetwork server) := by
  refine hR.seq (hR.fileSize hs) fun r => ?_
  cases r with
  | error e => exact hR.seq (hR.log _) fun _ => hR.pure _
  | ok size =>
    refine hR.seq (hR.read hs size) fun r => ?_
    cases r with
    | error e => exact hR.pure _
    | ok bytes => exact hR.seq (hR.logAll _) fun _ => hR.seq (hR.logAll _) fun _ => hR.pure _

section Commands

variable (server : Server) (hs : ∀ action, asks server.address (requestName server.mac server.uuid action))

include hs

theorem report {settings settings' : Settings} (hpath : settings.dontSetPathPrefix = settings'.dontSetPathPrefix)
    (selection : Menu.Selection) :
    R 0 (Boot.report ⟨h, d⟩ settings server selection) (Boot.report ⟨h, d'⟩ settings' server selection) := by
  have hset : setsPathPrefix settings' selection.entry = setsPathPrefix settings selection.entry := by
    rw [setsPathPrefix, setsPathPrefix, hpath]
  unfold Boot.report
  dsimp only
  rw [hset]
  split
  · refine hR.seq (hR.say _) fun _ => hR.seq (hR.tell (hs _)) fun _ => ?_
    split
    · exact hR.seq (hR.say _) fun _ => hR.tell (hs _)
    · exact hR.say _
  · split
    · exact hR.seq (hR.say _) fun _ => hR.tell (hs _)
    · exact hR.say _

end Commands

/-! ## Carrying out what was chosen -/

section Programs

variable {traps : Cell m Image.Traps} (hS : Served (fun {α : Type} (x : m α) => R 0 x x) h.toFirmware traps)

include hS

theorem fetchAndStart (c : Chainloader) {path : String} {server : Net.Ipv4} (hs : asks server path) :
    R 0 (c.fetchAndStart ⟨h, d⟩ traps path server) (c.fetchAndStart ⟨h, d'⟩ traps path server) := by
  refine hR.seq (hR.fetch hs) fun r => ?_
  cases r with
  | error e => exact hR.pure _
  | ok raw => exact hR.startFetched hS c path raw

variable (hmode : R 0 h.pxeMode h.pxeMode)
  (hredirect : ∀ file server, R 0 (h.redirectBoot file server) (h.redirectBoot file server))

include hmode hredirect

theorem run (c : Chainloader) {name : String} {server : Net.Ipv4} (hs : asks server (bootFilePath name)) :
    R 10000 (c.run ⟨h, d⟩ traps name server) (c.run ⟨h, d'⟩ traps name server) := by
  unfold Chainloader.run
  refine hR.seq hmode fun mode => ?_
  dsimp only
  split
  · exact hR.seq (hR.log _) fun _ => hR.done _
  split
  · exact hR.done _
  · refine hR.seq (hredirect name server) fun r => ?_
    cases r with
    | error e => exact hR.done _
    | ok u =>
      refine hR.seq (hR.sayDebug _) fun _ => hR.pay (t := 5000) _ (hR.debugDelay 5) (Nat.le_refl _) fun _ => ?_
      refine hR.seq (hR.fetchAndStart hS c hs) fun r => ?_
      cases r with
      | ok exit => exact hR.done _
      | error e => exact hR.seq (hR.say _) fun _ => hR.spend (hR.debugDelay 5) fun _ => hR.pure _

/-- What has been chosen is carried out. -/
theorem processEntry {settings settings' : Settings}
    (hsame : { settings with debug := 0 } = { settings' with debug := 0 }) (strategy : Strategy)
    {identity : Identity} {address : Net.Ipv4} (selection : Menu.Selection)
    (htell : ∀ action, asks address (requestName identity.mac identity.uuid action))
    (hfile : selection.entry.kind = .chainload → asks address (bootFilePath selection.entry.command)) :
    R 15000 (Boot.processEntry ⟨h, d⟩ traps strategy settings identity address selection)
      (Boot.processEntry ⟨h, d'⟩ traps strategy settings' identity address selection) := by
  obtain ⟨_, _, _, hpath, hchain, _⟩ := Settings.mk.inj hsame
  unfold Boot.processEntry
  rw [hchain]
  refine hR.seq (hR.say _) fun _ => ?_
  refine hR.seq (hR.report ⟨address, identity.mac, identity.uuid⟩ htell hpath selection) fun _ => ?_
  refine hR.pay (t := 10000) _ (hR.debugDelay 5) (Nat.le_refl _) fun _ => ?_
  unfold perform
  cases hkind : selection.entry.kind
  case chainload =>
    exact hR.seq (hR.say _) fun _ => hR.spend (hR.run hS hmode hredirect _ (hfile hkind)) fun _ => hR.pure _
  all_goals exact hR.seq (hR.say _) fun _ => hR.done _

end Programs

end Attends

end NetBoot
