/-
  NetBoot.Proofs.Boot.Repetition — a request that is repeated until there is an answer.

  A client that gets no menu waits and asks again, so often and no more. Two loops share one script of keys
  and one clock: the outer one makes the requests, the inner one reads keys until Escape comes or the time of
  the wait is up (`waitUntil_waited`). A wait hands the keys it has not read to the next one, and the clock
  stands where it has left it, so a turn of the outer loop leaves one of the same kind with one request less
  to make (`retryMenu_course`).

  What comes of it is a `Course`: the requests that are made, the world before and behind each, and what
  stands between them. Its constructors are the ways in which a turn goes on: nothing more is to be done
  (`Course.settled`), Escape comes (`Course.abandoned`), or the wait is over and there is another request
  (`Course.resumed`).

  The server may answer what it likes: a host has the console and the log of the simulated machine, and any
  network that takes no key and no time (`Networked`). The network of the simulated machine is one, and so is
  one that answers by a script (`answering`), for every script there is (`Course.answer_eq`).
-/

import NetBoot.Proofs.Boot.Contact
import NetBoot.Proofs.Boot.Delays
import NetBoot.Proofs.Boot.Twins
import NetBoot.Proofs.Menu.Countdown

namespace NetBoot

open Sim

/-! ## How long the waits are -/

namespace Boot.Rng

variable {g : Rng} {maxSeconds : Nat}

/-- The waits that are drawn, one after the other. -/
def wait (g : Rng) (maxSeconds : Nat) : Nat → Nat
  | 0 => (g.nextDelay maxSeconds).1
  | i + 1 => (g.nextDelay maxSeconds).2.wait maxSeconds i

theorem nextDelay_bounds (h : IsWord32 g.state) (maxSeconds : Nat) :
    0 < (g.nextDelay maxSeconds).1 ∧ (g.nextDelay maxSeconds).1 ≤ 2147483563 := by
  by_cases hnone : g.seed = 0 ∨ maxSeconds = 0
  · rw [nextDelay_fallback hnone]
    show 0 < fallbackDelay ∧ fallbackDelay ≤ 2147483563
    decide
  · rw [not_or] at hnone
    rw [nextDelay_fst hnone.1 (Nat.pos_of_ne_zero hnone.2) h]
    have hlt : g.next.1 < 2147483563 := (step_bounds h).2
    have hle := Nat.mod_le g.next.1.toNat (maxSeconds * 1000)
    omega

theorem isWord32_nextDelay (h : IsWord32 g.state) (maxSeconds : Nat) : IsWord32 (g.nextDelay maxSeconds).2.state := by
  by_cases hnone : g.seed = 0 ∨ maxSeconds = 0
  · rwa [nextDelay_fallback hnone]
  · rw [not_or] at hnone
    rw [nextDelay_snd hnone.1 (Nat.pos_of_ne_zero hnone.2)]
    exact isWord32_step h

theorem wait_of_seed_zero (h : g.seed = 0) (i : Nat) : g.wait maxSeconds i = 10000 := by
  have hdraw : g.nextDelay maxSeconds = (fallbackDelay, g) := nextDelay_fallback (.inl h)
  induction i with
  | zero => simp [wait, hdraw, fallbackDelay]
  | succ i ih => simpa [wait, hdraw] using ih

/-- Every wait is known from the seed. -/
theorem wait_eq {seed : Int32} {n : Nat} (h : Drawn seed n g) (hseed : seed ≠ 0) (hmax : 0 < maxSeconds) (i : Nat) :
    g.wait maxSeconds i =
      max 1000 (1 + (40014 ^ (n + i + 1) * seed.toInt % modulus).toNat % (maxSeconds * 1000)) := by
  induction i generalizing n g with
  | zero => rw [wait, nextDelay_fst (by rwa [h.seed_eq]) hmax h.isWord32, h.next_eq, Nat.add_zero]
  | succ i ih => rw [wait, ih (h.wait hseed hmax), Nat.add_right_comm n 1 i, Nat.add_assoc n i 1]

end Boot.Rng

/-! ## Hosts with a network of their own -/

namespace Sim

/-- No key has been asked for, and no time has passed. -/
structure Undisturbed (w w' : World) : Prop where
  keys : w'.keys = w.keys
  timeouts : w'.keyTimeouts = w.keyTimeouts
  sleeps : w'.sleeps = w.sleeps
  clock : w'.clock = w.clock

theorem Undisturbed.ordered : Ordered Undisturbed where
  refl _ := ⟨rfl, rfl, rfl, rfl⟩
  trans h h' := ⟨h'.keys.trans h.keys, h'.timeouts.trans h.timeouts, h'.sleeps.trans h.sleeps, h'.clock.trans h.clock⟩

/-- The console and the log of the simulated machine. The network may answer anything, and do with the rest
    of the machine what it wants. -/
structure Networked (h : Host Sim) : Prop where
  console : h.toConsole = (machine 0).toConsole
  journal : h.toFirmware.toJournal = ⟨keepLog⟩
  reserve (len : Nat) : Total Undisturbed (h.toNetwork.reserve len)
  fileSize (server : Net.Ipv4) (name : String) : Total Undisturbed (h.toNetwork.fileSize server name)
  receiveFile (server : Net.Ipv4) (name : String) (len : Nat) :
    Total Undisturbed (h.toNetwork.receiveFile server name len)

theorem networked_machine (n : Nat) : Networked (machine n) where
  console := machine_toConsole n
  journal := machine_toJournal n
  reserve len := by
    rw [machine_reserve]
    exact fun w => ⟨_, w, rfl, rfl, rfl, rfl, rfl⟩
  fileSize server name := by
    intro w
    obtain ⟨events, sizeFailures, hr, -⟩ := fileSize_run server name w
    rw [machine_fileSize]
    exact ⟨_, _, hr, rfl, rfl, rfl, rfl⟩
  receiveFile server name len := by
    intro w
    obtain ⟨events, reads, hr, -⟩ := receiveFile_run server name len w
    rw [machine_receiveFile]
    exact ⟨_, _, hr, rfl, rfl, rfl, rfl⟩

namespace Networked

variable {h : Host Sim} (hh : Networked h)

include hh

theorem say_eq (debug : Bool) (pieces : List String) :
    Boot.Session.say ⟨h, debug⟩ pieces = (machine 0).toConsole.say pieces := by
  show h.toConsole.say pieces = _
  rw [hh.console]

theorem total_log (r : Log.Record) : Total Undisturbed (h.toFirmware.toJournal.log r) := by
  rw [hh.journal]
  exact .silent (fun _ _ => ⟨rfl, rfl, rfl, rfl⟩) (.note r)

/-- A request is answered, whatever the network says to it. -/
theorem total_menu (server : Boot.Server) (architecture : UInt16) :
    Total Undisturbed (server.menu h.toNetwork architecture) := by
  have ho := Undisturbed.ordered
  refine .bind ho (hh.total_log _) fun _ => .bind ho (hh.fileSize _ _) fun size => ?_
  cases size with
  | error e => exact .bind ho (hh.total_log _) fun _ => .pure ho _
  | ok size =>
    refine .bind ho (hh.reserve _) fun reserved => ?_
    split
    · refine .bind ho (hh.receiveFile _ _ _) fun (result, buffer) => ?_
      cases result with
      | error e => exact .bind ho (hh.total_log _) fun _ => .pure ho _
      | ok count => exact .bind ho (hh.total_log _) fun _ => .pure ho _
    · exact .pure ho _

end Networked

/-! ## A server that answers by a script -/

def Event.isSizeQuery : Event → Bool
  | .fileSize .. => true
  | _ => false

/-- How many files have been asked for. -/
def World.sizeQueries (w : World) : Nat := w.events.toList.countP Event.isSizeQuery

theorem Noted.sizeQueries_eq {es : List Event} {w w' : World} (h : Noted es w w') :
    w'.sizeQueries = w.sizeQueries + es.countP Event.isSizeQuery := by
  rw [World.sizeQueries, h, List.countP_append, World.sizeQueries]

/-- What is sent for the file that has been asked for last. -/
def sending (replies : Nat → Except ServiceError Bytes) (w : World) : Bytes :=
  match replies (w.sizeQueries - 1) with
  | .error _ => #[]
  | .ok data => data

/-- The simulated machine, with memory for all that is sent, and a server that gives these answers in turn. -/
def answering (replies : Nat → Except ServiceError Bytes) : Host Sim where
  toFirmware := (machine 0).toFirmware
  toConsole := (machine 0).toConsole
  setLogLimit := (machine 0).setLogLimit
  pxeMode := (machine 0).pxeMode
  dhcpServer := (machine 0).dhcpServer
  clientMac := (machine 0).clientMac
  discoverPacket := (machine 0).discoverPacket
  systemUuid := (machine 0).systemUuid
  reserve _ := return true
  fileSize server name := do
    let size := (replies (← get).sizeQueries).map fun data => UInt64.ofNat data.size
    emit (.fileSize server name size)
    return size
  receiveFile server name len := do
    let data := sending replies (← get)
    emit (.receiveFile server name len (.ok data.size))
    return (.ok data.size, data)
  resolveHost := (machine 0).resolveHost
  redirectBoot := (machine 0).redirectBoot

section Answering

variable (replies : Nat → Except ServiceError Bytes)

theorem networked_answering : Networked (answering replies) where
  console := rfl
  journal := rfl
  reserve _ w := ⟨_, w, rfl, rfl, rfl, rfl, rfl⟩
  fileSize _ _ _ := ⟨_, _, rfl, rfl, rfl, rfl, rfl⟩
  receiveFile _ _ _ _ := ⟨_, _, rfl, rfl, rfl, rfl, rfl⟩

theorem answering_fileSize (server : Net.Ipv4) (name : String) (w : World) :
    ∃ w', (answering replies).toNetwork.fileSize server name w =
        .ok ((replies w.sizeQueries).map fun data => UInt64.ofNat data.size) w' ∧
      w'.sizeQueries = w.sizeQueries + 1 :=
  ⟨_, rfl, by simp [World.sizeQueries, Event.isSizeQuery]⟩

theorem answering_receiveFile (server : Net.Ipv4) (name : String) (len : Nat) (w : World) :
    ∃ w', (answering replies).toNetwork.receiveFile server name len w =
        .ok (.ok (sending replies w).size, sending replies w) w' ∧
      w'.sizeQueries = w.sizeQueries :=
  ⟨_, rfl, by simp [World.sizeQueries, Event.isSizeQuery]⟩

/-- A request gets the answer whose turn it is. -/
theorem answering_menu (hsize : ∀ i data, replies i = .ok data → data.size < UInt64.size)
    (server : Boot.Server) (architecture : UInt16) (w : World) :
    ∃ w', server.menu (answering replies).toNetwork architecture w =
        .ok ((replies w.sizeQueries).mapError BootError.network) w' ∧
      w'.sizeQueries = w.sizeQueries + 1 := by
  have hlog (r : Log.Record) : Silent ((answering replies).toNetwork.toJournal.log r) () := .note r
  unfold Boot.Server.menu Boot.Server.fetch Boot.Transfer.fetch Boot.Transfer.read Journal.debug Journal.error
  generalize Boot.requestName server.mac server.uuid (.menu architecture) = name
  obtain ⟨log, hr⟩ := (hlog _).bind_run _ w
  rw [hr]
  obtain ⟨u, hu, hcount⟩ := answering_fileSize replies server.address name { w with log }
  rw [bind_of_ok hu]
  have hturn : replies (World.sizeQueries { w with log }) = replies w.sizeQueries := rfl
  rw [hturn]
  cases hreply : replies w.sizeQueries with
  | error e =>
    obtain ⟨log', hr'⟩ := (hlog _).bind_run _ u
    exact ⟨_, hr', hcount⟩
  | ok data =>
    have hnat : (UInt64.ofNat data.size).toNat = data.size := UInt64.toNat_ofNat_of_lt' (hsize _ _ hreply)
    have hroom (len : Nat) : (answering replies).toNetwork.reserve len u = .ok true u := rfl
    have hsent : sending replies u = data := by
      rw [sending, hcount, Nat.add_sub_cancel, hturn, hreply]
    obtain ⟨v, hv, hcount'⟩ := answering_receiveFile replies server.address name data.size u
    rw [hsent] at hv
    simp only [Except.map, hnat]
    rw [bind_of_ok (hroom _), if_pos rfl, bind_of_ok hv]
    dsimp only
    rw [Nat.min_self, Bytes.resize_self]
    obtain ⟨log', hr'⟩ := (hlog _).bind_run _ v
    exact ⟨_, hr', hcount'.trans hcount⟩

end Answering

/-! ## Text and keys -/

section Console

variable {w w' : World} {key : Key} {delay : UInt32}

theorem say_polled (wait : UInt32) (pieces : List String) (w : World) :
    ∃ w', (machine 0).toConsole.say pieces w = .ok () w' ∧ Polled wait [] (pieces.map .print) w w' := by
  induction pieces generalizing w with
  | nil => exact ⟨w, rfl, .unread (.nil rfl) rfl rfl rfl rfl⟩
  | cons piece pieces ih =>
    obtain ⟨w', hr, hrest⟩ := ih { w with events := w.events.push (.print piece) }
    have hfirst : Polled wait [] [.print piece] w { w with events := w.events.push (.print piece) } :=
      .unread (.push rfl) rfl rfl rfl rfl
    exact ⟨w', hr, hfirst.trans hrest⟩

/-- Text takes no time. -/
theorem Polled.clock_eq_of_unread {wait : UInt32} {es : List Event} (h : Polled wait [] es w w') :
    w'.clock.toNat = w.clock.toNat := by
  simpa [Nat.mod_eq_of_lt w.clock.toNat_lt] using h.clock

theorem eq_cons_of_head {keys : List (Option Key)} (h : keys.head?.join = some key) :
    ∃ rest, keys = some key :: rest := by
  rcases keys with _ | ⟨first, rest⟩
  · cases h
  · obtain rfl : first = some key := h
    exact ⟨rest, rfl⟩

/-- What the reads of a wait answer: other keys, and then the one that is awaited, or nothing. -/
def heard (key : Key) (pressed : Bool) (others : List Key) : List (Option Key) :=
  others.map some ++ [if pressed then some key else none]

/-- A wait for a key reads the other keys that come before it on the script, each with the whole time that
    it has, and then that key, or nothing in this time. -/
structure Waited (key : Key) (delay : UInt32) (pressed : Bool) (others : List Key) (w w' : World) : Prop where
  ignored : key ∉ others
  script : ∃ rest, w.keys = others.map some ++ rest ∧ rest.head?.join = if pressed then some key else none
  polled : Polled delay (heard key pressed others)
    ((heard key pressed others).map fun answer => .readKey delay (some answer)) w w'

namespace Waited

variable {pressed : Bool} {others : List Key}

theorem first (hhead : w.keys.head?.join = if pressed then some key else none)
    (hp : Polled delay [w.keys.head?.join] [.readKey delay (some w.keys.head?.join)] w w') :
    Waited key delay pressed [] w w' where
  ignored := List.not_mem_nil
  script := ⟨w.keys, rfl, hhead⟩
  polled := by
    rw [hhead] at hp
    exact hp

theorem behind {other : Key} {keys : List (Option Key)} {v : World} (hne : key ≠ other)
    (hkeys : w.keys = some other :: keys)
    (hp : Polled delay [some other] [.readKey delay (some (some other))] w v)
    (h : Waited key delay pressed others v w') : Waited key delay pressed (other :: others) w w' where
  ignored := by simp [hne, h.ignored]
  script := by
    obtain ⟨rest, hrest, hhead⟩ := h.script
    have hv : v.keys = keys := by simp [hp.keys, hkeys]
    exact ⟨rest, by simp [hkeys, ← hv, hrest], hhead⟩
  polled := hp.trans h.polled

/-- Only the read that nothing answers takes time, and it takes all of it. -/
theorem clock_eq (h : Waited key delay pressed others w w') (hclock : w.clock.toNat + delay.toNat < UInt64.size) :
    w'.clock.toNat = w.clock.toNat + if pressed then 0 else delay.toNat := by
  have hothers : (others.map some).count none = 0 := by simp [List.count_eq_zero]
  rw [h.polled.clock, heard, List.count_append, hothers]
  cases pressed with
  | true => simp
  | false => simpa using Nat.mod_eq_of_lt hclock

end Waited

theorem waitUntil_over {deadline : Nat} (h : deadline ≤ w.clock.toNat) (reads : Nat) :
    Boot.waitUntil (machine 0).toConsole key deadline reads w = .ok false w := by
  cases reads with
  | zero => rfl
  | succ reads => rw [waitUntil_succ, if_pos h]

/-- The loop, by the script of the keys: other keys leave it as much time as it had. -/
theorem waitUntil_waited (hdelay : delay ≠ 0) (reads : Nat) (w : World) (hreads : w.keys.length < reads)
    (hclock : w.clock.toNat + delay.toNat < UInt64.size) :
    ∃ pressed others w',
      Boot.waitUntil (machine 0).toConsole key (w.clock.toNat + delay.toNat) reads w = .ok pressed w' ∧
        Waited key delay pressed others w w' := by
  have hpos : delay.toNat ≠ 0 := fun h => hdelay (UInt32.toNat_inj.mp h)
  have hword := delay.toNat_lt
  have hleft : UInt32.ofNat (min delay.toNat (UInt32.size - 1)) = delay := by
    rw [Nat.min_eq_left (by simp only [UInt32.size]; omega), UInt32.ofNat_toNat]
  induction reads generalizing w with
  | zero => omega
  | succ reads ih =>
    obtain ⟨v, hr, hp⟩ := readKey_polled (w := w) (.inl hdelay)
    rw [waitUntil_succ, if_neg (by omega), Nat.add_sub_cancel_left, hleft, bind_of_ok hr]
    cases hhead : w.keys.head?.join with
    | none =>
      have hwaited : Waited key delay false [] w v := .first hhead hp
      have hover : w.clock.toNat + delay.toNat ≤ v.clock.toNat := Nat.le_of_eq (hwaited.clock_eq hclock).symm
      rw [if_neg (by simp), waitUntil_over hover]
      exact ⟨false, [], v, rfl, hwaited⟩
    | some other =>
      by_cases hkey : other = key
      · rw [if_pos (by rw [hkey])]
        exact ⟨true, [], v, rfl, .first (by simp [hhead, hkey]) hp⟩
      · obtain ⟨keys, hkeys⟩ := eq_cons_of_head hhead
        rw [hhead] at hp
        have hclockv : v.clock.toNat = w.clock.toNat := by
          simpa [Nat.mod_eq_of_lt w.clock.toNat_lt] using hp.clock
        have hlength : v.keys.length < reads := by
          simp only [hp.keys, hkeys, List.length_cons, List.length_drop, List.length_nil] at hreads ⊢
          omega
        obtain ⟨pressed, others, w', hr', hwaited⟩ := ih v hlength (by rw [hclockv]; exact hclock)
        rw [if_neg (by simp [hkey]), ← hclockv, hr']
        exact ⟨pressed, other :: others, w', rfl, hwaited.behind (Ne.symm hkey) hkeys hp⟩

theorem waitForKey_waited (key : Key) (hdelay : delay ≠ 0) (w : World)
    (hclock : w.clock.toNat + delay.toNat < UInt64.size) :
    ∃ pressed others w', Boot.waitForKey (machine 0).toConsole key delay w = .ok pressed w' ∧
      Waited key delay pressed others w w' :=
  waitUntil_waited hdelay (w.keys.length + 2) w (by omega) hclock

end Console

end Sim

namespace Boot

/-! ## Between two requests -/

/-- What is said before a wait. -/
def announcement (delay : Nat) : List String :=
  ["Did not get menu, retrying in ", s!"{delay / 1000}", ".",
    s!"{delay % 1000 / 100}{delay % 100 / 10}{delay % 10}", " seconds (Press ESC to abort)...\n"]

/-- What is said behind it. -/
def farewell (escaped : Bool) : List String := if escaped then ["\nEsc Pressed. Aborting retry...\n"] else []

/-- What is seen of a wait. -/
def pauseEvents (delay : Nat) (escaped : Bool) (others : List Key) : List Event :=
  (announcement delay).map .print ++
    (heard .escape escaped others).map (fun answer => .readKey (UInt32.ofNat delay) (some answer)) ++
    (farewell escaped).map .print

/-- What follows a failed request: one wait for Escape, which other keys neither end nor prolong. It is
    escaped if Escape is the first key on the script that is not one of them, and otherwise takes the whole
    delay. -/
structure Pause (delay : Nat) (escaped : Bool) (others : List Key) (w w' : World) : Prop where
  ignored : .escape ∉ others
  script : ∃ rest, w.keys = others.map some ++ rest ∧ rest.head?.join = if escaped then some .escape else none
  polled : ∃ log, Polled (UInt32.ofNat delay) (heard .escape escaped others) (pauseEvents delay escaped others)
    { w with log } w'
  clock : w'.clock.toNat = w.clock.toNat + if escaped then 0 else delay

variable {h : Host Sim} {w w' : World} {retries : Nat}

/-- No file is asked for in a pause. -/
theorem Pause.sizeQueries_eq {delay : Nat} {escaped : Bool} {others : List Key} (hp : Pause delay escaped others w w') :
    w'.sizeQueries = w.sizeQueries := by
  obtain ⟨log, hpolled⟩ := hp.polled
  have hnone : (pauseEvents delay escaped others).countP Event.isSizeQuery = 0 := by
    simp [List.countP_eq_zero, pauseEvents, Event.isSizeQuery]
  have hcount := hpolled.shown.sizeQueries_eq
  rwa [hnone] at hcount

/-- The turn of the loop that a pause is, with what follows it. -/
theorem pause_run (hh : Networked h) (debug : Bool) {delay : Nat} (hpos : 0 < delay) (hlt : delay < UInt32.size)
    (r : Log.Record) {α : Type} (a : α) (next : Sim α) (w : World) (hclock : w.clock.toNat + delay < UInt64.size) :
    ∃ escaped others w', (do
        h.toFirmware.toJournal.log r
        Session.say ⟨h, debug⟩ (announcement delay)
        if ← waitForKey h.toConsole .escape (UInt32.ofNat delay) then
          Session.say ⟨h, debug⟩ ["\nEsc Pressed. Aborting retry...\n"]
          return a
        else next) w = (if escaped then pure a else next) w' ∧ Pause delay escaped others w w' := by
  have hdelay : (UInt32.ofNat delay).toNat = delay := UInt32.toNat_ofNat_of_lt' hlt
  have hne : UInt32.ofNat delay ≠ 0 := by
    intro h0
    rw [h0, UInt32.toNat_zero] at hdelay
    omega
  rw [hh.journal, hh.console]
  obtain ⟨log, hlog⟩ := (Silent.note r).bind_run _ w
  rw [hlog, hh.say_eq]
  obtain ⟨u, hu, hannounced⟩ := say_polled (UInt32.ofNat delay) (announcement delay) { w with log }
  have huclock : u.clock.toNat = w.clock.toNat := hannounced.clock_eq_of_unread
  obtain ⟨escaped, others, v, hv, hwaited⟩ := waitForKey_waited .escape hne u (by omega)
  have hvclock := hwaited.clock_eq (by omega)
  have hukeys : u.keys = w.keys := hannounced.keys
  obtain ⟨w', hw', hfarewell⟩ := say_polled (UInt32.ofNat delay) (farewell escaped) v
  refine ⟨escaped, others, w', ?_, hwaited.ignored, hukeys ▸ hwaited.script, ⟨log, ?_⟩, ?_⟩
  · rw [bind_of_ok hu, bind_of_ok hv]
    cases escaped with
    | true =>
      rw [if_pos rfl, if_pos rfl, hh.say_eq]
      exact bind_of_ok hw' _
    | false =>
      obtain rfl : v = w' := (EStateM.Result.ok.inj hw').2
      rfl
  · simpa [pauseEvents] using (hannounced.trans hwaited.polled).trans hfarewell
  · rw [hfarewell.clock_eq_of_unread, hvclock, huclock, hdelay]

/-! ## The requests -/

/-- How a repeated request goes: at most so many times again, and no further than to the first answer or the
    first wait that is escaped. -/
structure Course (request : Sim (Except BootError Bytes)) (delay : Nat → Nat) (retries : Nat) where
  /-- The number of the last request; the first is number 0. -/
  last : Nat
  answer : Nat → Except BootError Bytes
  /-- The world in which a request is made. -/
  asked : Nat → World
  /-- The world in which it is answered. -/
  answered : Nat → World
  finish : World
  last_le : last ≤ retries
  request_run : ∀ i ≤ last, request (asked i) = .ok (answer i) (answered i)
  failed : ∀ i < last, ∃ e, answer i = .error e
  paused : ∀ i < last, ∃ others, Pause (delay i) false others (answered i) (asked (i + 1))
  /-- Nothing follows an answer, nor the last request there is; what follows another is a wait that is
      escaped. -/
  ends : finish = answered last ∧ (last = retries ∨ ∃ bytes, answer last = .ok bytes) ∨
    last < retries ∧ (∃ e, answer last = .error e) ∧ ∃ others, Pause (delay last) true others (answered last) finish

namespace Course

variable {request : Sim (Except BootError Bytes)} {delay : Nat → Nat} {a : Except BootError Bytes} {e : BootError}

def settled (hrun : request w = .ok a w') (hdone : retries = 0 ∨ ∃ bytes, a = .ok bytes) :
    Course request delay retries where
  last := 0
  answer _ := a
  asked _ := w
  answered _ := w'
  finish := w'
  last_le := Nat.zero_le _
  request_run _ _ := hrun
  failed _ hi := absurd hi (Nat.not_lt_zero _)
  paused _ hi := absurd hi (Nat.not_lt_zero _)
  ends := .inl ⟨rfl, hdone.imp_left Eq.symm⟩

def abandoned {others : List Key} {v : World} (hrun : request w = .ok (.error e) w')
    (hpause : Pause (delay 0) true others w' v) : Course request delay (retries + 1) where
  last := 0
  answer _ := .error e
  asked _ := w
  answered _ := w'
  finish := v
  last_le := Nat.zero_le _
  request_run _ _ := hrun
  failed _ hi := absurd hi (Nat.not_lt_zero _)
  paused _ hi := absurd hi (Nat.not_lt_zero _)
  ends := .inr ⟨Nat.succ_pos _, ⟨e, rfl⟩, others, hpause⟩

/-- One request more in front. -/
def resumed {others : List Key} (hrun : request w = .ok (.error e) w')
    (c : Course request (fun i => delay (i + 1)) retries) (hpause : Pause (delay 0) false others w' (c.asked 0)) :
    Course request delay (retries + 1) where
  last := c.last + 1
  answer
    | 0 => .error e
    | i + 1 => c.answer i
  asked
    | 0 => w
    | i + 1 => c.asked i
  answered
    | 0 => w'
    | i + 1 => c.answered i
  finish := c.finish
  last_le := Nat.succ_le_succ c.last_le
  request_run
    | 0, _ => hrun
    | i + 1, hi => c.request_run i (Nat.le_of_succ_le_succ hi)
  failed
    | 0, _ => ⟨e, rfl⟩
    | i + 1, hi => c.failed i (Nat.lt_of_succ_lt_succ hi)
  paused
    | 0, _ => ⟨others, hpause⟩
    | i + 1, hi => c.paused i (Nat.lt_of_succ_lt_succ hi)
  ends := c.ends.imp (.imp_right (.imp_left (congrArg (· + 1)))) (.imp_left Nat.succ_lt_succ)

/-- A server that answers by a script gets to as many of its answers as there are requests. -/
theorem answer_eq {replies : Nat → Except ServiceError Bytes}
    (hsize : ∀ i data, replies i = .ok data → data.size < UInt64.size) {server : Server} {architecture : UInt16}
    (c : Course (server.menu (answering replies).toNetwork architecture) delay retries)
    (hstart : (c.asked 0).sizeQueries = 0) {i : Nat} (hi : i ≤ c.last) :
    c.answer i = (replies i).mapError BootError.network := by
  have hrequest (i : Nat) (hi : i ≤ c.last) :
      c.answer i = (replies (c.asked i).sizeQueries).mapError BootError.network ∧
        (c.answered i).sizeQueries = (c.asked i).sizeQueries + 1 := by
    obtain ⟨w', hr, hcount⟩ := answering_menu replies hsize server architecture (c.asked i)
    rw [c.request_run i hi] at hr
    obtain ⟨hanswer, hworld⟩ := EStateM.Result.ok.inj hr
    exact ⟨hanswer, by rw [hworld, hcount]⟩
  have hturn (i : Nat) : i ≤ c.last → (c.asked i).sizeQueries = i := by
    induction i with
    | zero => exact fun _ => hstart
    | succ i ih =>
      intro hi
      obtain ⟨others, hpause⟩ := c.paused i hi
      rw [hpause.sizeQueries_eq, (hrequest i (Nat.le_of_succ_le hi)).2, ih (Nat.le_of_succ_le hi)]
  rw [(hrequest i hi).1, hturn i hi]

end Course

/-- The loop, from the answer to the first request on. -/
theorem retryMenu_course (hh : Networked h) (debug : Bool) (server : Server) (architecture : UInt16)
    (maxDelay retries : Nat) (g : Rng) (hword : Rng.IsWord32 g.state) {a : Except BootError Bytes} (w w' : World)
    (hrun : server.menu h.toNetwork architecture w = .ok a w')
    (hclock : w'.clock.toNat + retries * 2147483563 < UInt64.size) :
    ∃ c : Course (server.menu h.toNetwork architecture) (g.wait maxDelay) retries, c.asked 0 = w ∧
      retryMenu ⟨h, debug⟩ server architecture maxDelay retries g a w' = .ok (c.answer c.last) c.finish := by
  induction retries generalizing g a w w' with
  | zero => exact ⟨.settled hrun (.inl rfl), rfl, rfl⟩
  | succ retries ih =>
    cases a with
    | ok bytes => exact ⟨.settled hrun (.inr ⟨bytes, rfl⟩), rfl, rfl⟩
    | error e =>
      obtain ⟨hpos, hle⟩ := Rng.nextDelay_bounds hword maxDelay
      rw [Nat.succ_mul] at hclock
      obtain ⟨escaped, others, v, hv, hpause⟩ := pause_run hh debug hpos (by simp only [UInt32.size]; omega)
        ⟨.debug, "netchain_pxe::retry", s!"menu request to {server.address.text} failed: {e.message}"⟩
        (.error e) (do
          retryMenu ⟨h, debug⟩ server architecture maxDelay retries (g.nextDelay maxDelay).2
            (← server.menu h.toNetwork architecture)) w' (by omega)
      have hturn : retryMenu ⟨h, debug⟩ server architecture maxDelay (retries + 1) g (.error e) w' = _ := hv
      rw [hturn]
      cases escaped with
      | true => exact ⟨.abandoned hrun hpause, rfl, rfl⟩
      | false =>
        obtain ⟨a, v', hv', hquiet⟩ := hh.total_menu server architecture v
        have hclockv := hpause.clock
        rw [if_neg Bool.false_ne_true] at hclockv
        obtain ⟨c, hc, hrest⟩ := ih (g.nextDelay maxDelay).2 (Rng.isWord32_nextDelay hword maxDelay) v v' hv'
          (by rw [hquiet.clock]; omega)
        rw [if_neg Bool.false_ne_true, bind_of_ok hv', hrest]
        exact ⟨.resumed hrun c (hc ▸ hpause), rfl, rfl⟩

/-- What is said before the first request, if it may be repeated. -/
def opening (debug : Bool) (g : Rng) (policy : RetryPolicy) : List String :=
  if 0 < policy.retries then
    ["Retries: ", s!"{policy.retries}", ", Max delay between retries: ", s!"{policy.maxDelay}", " seconds\n"] ++
      if debug then ["Random seed: ", g.seedText, "\n"] else []
  else []

theorem fetchMenu_opens (hh : Networked h) (debug : Bool) (server : Server) (architecture : UInt16)
    (policy : RetryPolicy) (w : World) :
    ∃ u, fetchMenu ⟨h, debug⟩ server architecture policy w =
        (server.menu h.toNetwork architecture >>= fun a =>
          retryMenu ⟨h, debug⟩ server architecture policy.maxDelay policy.retries (Rng.ofMac server.mac) a) u ∧
      Polled 0 [] ((opening debug (Rng.ofMac server.mac) policy).map .print) w u := by
  unfold fetchMenu opening
  dsimp only
  by_cases hretries : 0 < policy.retries
  · rw [if_pos hretries, if_pos hretries, hh.say_eq]
    obtain ⟨v, hv, hfirst⟩ := say_polled 0 ["Retries: ", s!"{policy.retries}", ", Max delay between retries: ",
      s!"{policy.maxDelay}", " seconds\n"] w
    rw [bind_of_ok hv, Session.sayDebug, List.map_append]
    cases debug with
    | true =>
      obtain ⟨u, hu, hsecond⟩ := say_polled 0 ["Random seed: ", (Rng.ofMac server.mac).seedText, "\n"] v
      rw [if_pos rfl, hh.say_eq, bind_of_ok hu]
      exact ⟨u, rfl, hfirst.trans hsecond⟩
    | false => exact ⟨v, rfl, by simpa using hfirst⟩
  · rw [if_neg hretries, if_neg hretries]
    exact ⟨w, rfl, .unread (.nil rfl) rfl rfl rfl rfl⟩

/-- Whatever the server answers and whatever keys come, the menu is asked for once, and again as often as the
    policy allows, until it comes or a wait is escaped. What it comes to is what the last request has been
    answered. Each wait is the next one that is drawn from the hardware address, and requests take no key
    and no time. -/
theorem fetchMenu_repeats (hh : Networked h) (debug : Bool) (server : Server) (architecture : UInt16)
    (policy : RetryPolicy) (hretries : policy.retries < UInt32.size) (w : World) (hclock : w.clock.toNat < 2 ^ 63) :
    ∃ c : Course (server.menu h.toNetwork architecture) ((Rng.ofMac server.mac).wait policy.maxDelay) policy.retries,
      fetchMenu ⟨h, debug⟩ server architecture policy w = .ok (c.answer c.last) c.finish ∧
        Polled 0 [] ((opening debug (Rng.ofMac server.mac) policy).map .print) w (c.asked 0) ∧
        (∀ i ≤ c.last, Undisturbed (c.asked i) (c.answered i)) ∧
        ((Rng.ofMac server.mac).seed = 0 → ∀ i, (Rng.ofMac server.mac).wait policy.maxDelay i = 10000) := by
  have hword : Rng.IsWord32 (Rng.ofMac server.mac).state := Rng.Drawn.fresh.isWord32
  obtain ⟨u, hu, hopened⟩ := fetchMenu_opens hh debug server architecture policy w
  obtain ⟨a, v, hv, hquiet⟩ := hh.total_menu server architecture u
  have hvclock : v.clock.toNat + policy.retries * 2147483563 < UInt64.size := by
    simp only [UInt32.size, UInt64.size] at hretries ⊢
    rw [hquiet.clock, hopened.clock_eq_of_unread]
    omega
  obtain ⟨c, hc, hrun⟩ :=
    retryMenu_course hh debug server architecture policy.maxDelay policy.retries _ hword u v hv hvclock
  refine ⟨c, ?_, hc ▸ hopened, fun i hi => ?_, Rng.wait_of_seed_zero⟩
  · rw [hu, bind_of_ok hv, hrun]
  · obtain ⟨b, w', hb, hundisturbed⟩ := hh.total_menu server architecture (c.asked i)
    rw [c.request_run i hi] at hb
    cases hb
    exact hundisturbed

/-- Other keys in the first wait, and Escape behind another key in the second. -/
theorem fetchMenu_escaped :
    let replies : Nat → Except ServiceError Bytes
      | 0 => .error .notReady
      | 1 => .error .notFound
      | _ => .ok #[0x5b]
    let server : Server := ⟨⟨10, 0, 0, 1⟩, .ofBytes #[1, 2, 3, 4, 0xff, 0xff], none⟩
    let w : World := { keys := [some .enter, some .up, none, some .enter, some .escape, some .down] }
    ∃ c : Course (server.menu (answering replies).toNetwork 7) ((Rng.ofMac server.mac).wait 20) 5,
      fetchMenu ⟨answering replies, false⟩ server 7 { retries := 5 } w = .ok (.error (.network .notFound)) c.finish ∧
        c.last = 1 ∧ c.finish.clock = 15789 ∧ c.finish.keys = [some .down] := by
  intro replies server w
  obtain ⟨c, hr, hopen, -⟩ :=
    fetchMenu_repeats (networked_answering replies) false server 7 { retries := 5 } (by decide) w (by decide)
  obtain ⟨a, w', hr', hends⟩ := exists_of_endsWith
    (x := fetchMenu ⟨answering replies, false⟩ server 7 { retries := 5 }) (w := w)
    (p := fun a w' => a == .error (.network .notFound) && w'.clock == 15789 && w'.keys == [some .down])
    (by decide +kernel)
  simp only [Bool.and_eq_true, beq_iff_eq] at hends
  obtain ⟨⟨rfl, hclock⟩, hkeys⟩ := hends
  rw [hr] at hr'
  obtain ⟨hanswer, rfl⟩ := EStateM.Result.ok.inj hr'
  have hstart : (c.asked 0).sizeQueries = 0 := hopen.shown.sizeQueries_eq
  have hsize (i : Nat) (data : Bytes) (hi : replies i = .ok data) : data.size < UInt64.size := by
    rcases i with _ | _ | i <;> cases hi
    decide
  have hlast := c.answer_eq hsize hstart (Nat.le_refl c.last)
  refine ⟨c, by rw [hr, hanswer], ?_, hclock, hkeys⟩
  rw [hanswer] at hlast
  rcases hl : c.last with _ | _ | i
  · rw [hl] at hlast
    cases hlast
  · rfl
  · rw [hl] at hlast
    cases hlast

end Boot

end NetBoot
