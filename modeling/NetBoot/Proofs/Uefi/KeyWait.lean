/-
  NetBoot.Proofs.Uefi.KeyWait — a wait for one key, on a firmware that can only be polled.

  A wait is two loops. The inner one polls the keyboard for any key, with an interval of ten
  milliseconds behind each poll that finds nothing, and counts for itself how long it has waited
  (`readKey_eq_pollCounting`). The outer one starts it again after every other key, with the time that
  is left on the platform's clock until a deadline. That clock counts the intervals and nothing else,
  so the time that is left is the delay less ten milliseconds for each of them, and both loops agree
  on how many intervals are still to go: what counts is `idlePolls`, the polls that have found nothing.

  A poll is made if the poll before it was begun in time and the key has not come (`Made`). Each turn
  takes one poll off the script and leaves a wait of the same kind on the rest of it (`Made.of_idle`,
  `Made.of_other`), so the two loops are followed by one induction on the intervals to go, and within it
  on the script (`pollFor_run`). Other keys take no interval, so they neither shorten a wait nor
  prolong it (`waitForKey_polls`).
-/

import NetBoot.Boot.Retry
import NetBoot.Proofs.Uefi.Run
import NetBoot.Uefi.Platform

namespace NetBoot.Uefi

open Platform (keyPollInterval pollKey pollFor pollsIn)

/-! ## The keyboard -/

/-- The key of a keystroke, if the firmware reports one. -/
def Stroke.key? (s : Stroke) : Option Key := if s.status = .success then some (.ofStroke s.scan s.unit) else none

namespace World

/-- What the polls to come find, in their order. After that they find nothing. -/
def keyScript (w : World) : List (Option Key) := if w.hasInput then w.keys.map (·.bind Stroke.key?) else []

/-- The world after so many polls and so many intervals. -/
def passed (w : World) (reads intervals : Nat) : World :=
  { w with
    keys := if w.hasInput then w.keys.drop reads else w.keys
    ticks := w.ticks + UInt64.ofNat (10 * intervals)
    events := w.events ++ Array.replicate intervals (.stall 10000 1)
    lockedCalls :=
      if w.hooks.locked then w.lockedCalls ++ Array.replicate intervals (.stall 10000 1) else w.lockedCalls }

variable (w : World) (reads intervals : Nat)

theorem with_keys_self {w : World} {keys : List (Option Stroke)} (h : keys = w.keys) : { w with keys } = w := by
  subst h
  rfl

theorem passed_passed (reads' intervals' : Nat) :
    (w.passed reads intervals).passed reads' intervals' = w.passed (reads + reads') (intervals + intervals') := by
  have hticks : w.ticks + UInt64.ofNat (10 * intervals) + UInt64.ofNat (10 * intervals') =
      w.ticks + UInt64.ofNat (10 * (intervals + intervals')) := by
    rw [Nat.mul_add, UInt64.ofNat_add, UInt64.add_assoc]
  unfold passed
  dsimp only
  rw [hticks, ← Array.replicate_append_replicate, ← Array.append_assoc]
  congr 1
  · split
    · rw [List.drop_drop]
    · rfl
  · split
    · rw [Array.append_assoc]
    · rfl

/-- A poll takes a keystroke off the keyboard, if there is one. -/
theorem passed_poll : w.passed 1 0 = { w with keys := if w.hasInput then w.keys.tail else w.keys } := by
  simp [passed]

/-- An interval is a stall that the clock counts. -/
theorem passed_interval : w.passed 0 1 = { w.noting (.stall 10000 1) with ticks := w.ticks + 10 } := by
  unfold passed noting
  congr 1
  simp

theorem keyScript_passed : (w.passed reads intervals).keyScript = w.keyScript.drop reads := by
  unfold keyScript passed
  dsimp only
  split
  · rw [List.map_drop]
  · rw [List.drop_nil]

theorem toNat_ticks_passed (h : w.ticks.toNat + 10 * intervals < UInt64.size) :
    (w.passed reads intervals).ticks.toNat = w.ticks.toNat + 10 * intervals := by
  have hsmall : 10 * intervals < UInt64.size := by omega
  show (w.ticks + UInt64.ofNat (10 * intervals)).toNat = _
  rw [UInt64.toNat_add, UInt64.toNat_ofNat_of_lt' hsmall]
  exact Nat.mod_eq_of_lt h

end World

/-! ## The loops, turn by turn -/

section Loops

theorem servicesPollKey_run (w : World) :
    Services.pollKey w = .ok (if w.hasInput then w.keys.head?.join else none) (w.passed 1 0) := by
  unfold Services.pollKey
  rw [get_bind, World.passed_poll]
  by_cases hi : w.hasInput = true
  · have hinput : ¬ ((!w.hasInput) = true) := by simp [hi]
    rw [if_neg hinput, if_pos hi, if_pos hi]
    rcases hk : w.keys with _ | ⟨stroke, keys⟩
    · rw [World.with_keys_self (show [].tail = w.keys from hk.symm)]
      rfl
    · rfl
  · have hinput : (!w.hasInput) = true := by simp [hi]
    rw [if_pos hinput, if_neg hi, if_neg hi]
    rfl

/-- A poll takes the next of the script. -/
theorem pollKey_run (w : World) : pollKey w = .ok w.keyScript.head?.join (w.passed 1 0) := by
  unfold pollKey
  rw [bind_of_ok (servicesPollKey_run w), World.keyScript]
  by_cases hi : w.hasInput = true
  · rw [if_pos hi, if_pos hi]
    rcases w.keys with _ | ⟨_ | stroke, keys⟩
    · rfl
    · rfl
    · simp only [List.head?_cons, Option.join_some, List.map_cons, Option.bind_some, Stroke.key?]
      rfl
  · rw [if_neg hi, if_neg hi]
    rfl

theorem stall_run (w : World) : Services.stall keyPollInterval w = .ok () (w.passed 0 1) := by
  rw [World.passed_interval]
  rfl

variable {α : Type} {w : World} {n : Nat} {k : Key}

theorem pollFor_of_some (h : w.keyScript.head?.join = some k) (n : Nat) :
    pollFor n w = .ok (some k) (w.passed 1 0) := by
  unfold pollFor
  rw [bind_of_ok (pollKey_run w), h]
  rfl

theorem pollFor_zero_of_none (h : w.keyScript.head?.join = none) : pollFor 0 w = .ok none (w.passed 1 0) := by
  rw [pollFor, bind_of_ok (pollKey_run w), h]
  rfl

/-- A poll that finds nothing, and the interval behind it. -/
theorem pollFor_succ_of_none (h : w.keyScript.head?.join = none) (n : Nat) :
    pollFor (n + 1) w = pollFor n (w.passed 1 1) := by
  rw [pollFor, bind_of_ok (pollKey_run w), h]
  dsimp only
  rw [bind_of_ok (stall_run _), World.passed_passed]

theorem bind_congr_run {β : Type} {x y : Uefi α} {w' : World} (h : x w = y w') (f : α → Uefi β) :
    (x >>= f) w = (y >>= f) w' := by
  show EStateM.bind x f w = EStateM.bind y f w'
  simp only [EStateM.bind, h]

/-- So many milliseconds more, as far as a word can tell. -/
def addSaturating (a b : UInt32) : UInt32 := UInt32.ofNat (min (a.toNat + b.toNat) (UInt32.size - 1))

theorem toNat_addSaturating (a : UInt32) :
    (addSaturating a keyPollInterval).toNat = min (a.toNat + 10) (UInt32.size - 1) := by
  have hsize : UInt32.size = 4294967296 := rfl
  exact UInt32.toNat_ofNat_of_lt' (by omega)

/-- The inner loop by its own account: it polls until there is a key, or until it has waited for the
    timeout, and adds up the intervals that it waits. -/
def pollCounting (timeout waited : UInt32) : Uefi (Option Key) := do
  match ← pollKey with
  | some key => return some key
  | none =>
    if timeout ≤ waited then return none
    else
      Services.stall keyPollInterval
      pollCounting timeout (addSaturating waited keyPollInterval)
termination_by timeout.toNat - waited.toNat
decreasing_by
  rename_i h
  have hlt := timeout.toNat_lt
  have hsize : UInt32.size = 4294967296 := rfl
  rw [UInt32.le_iff_toNat_le] at h
  rw [toNat_addSaturating]
  omega

theorem pollCounting_eq {timeout : UInt32} (n : Nat) (waited : UInt32)
    (hn : n = (timeout.toNat - waited.toNat + 9) / 10) : pollCounting timeout waited = pollFor n := by
  have hlt := timeout.toNat_lt
  have hsize : UInt32.size = 4294967296 := rfl
  induction n generalizing waited with
  | zero =>
    have hover : timeout ≤ waited := by
      rw [UInt32.le_iff_toNat_le]
      omega
    unfold pollCounting pollFor
    refine bind_congr fun answer => ?_
    cases answer with
    | some key => rfl
    | none => exact if_pos hover
  | succ n ih =>
    have hleft : ¬ timeout ≤ waited := by
      rw [UInt32.le_iff_toNat_le]
      omega
    have hrest := ih (addSaturating waited keyPollInterval) (by rw [toNat_addSaturating]; omega)
    unfold pollCounting pollFor
    refine bind_congr fun answer => ?_
    cases answer with
    | some key => rfl
    | none =>
      dsimp only
      rw [if_neg hleft, hrest]

/-- The account is right: a read makes as many polls as its timeout has room for. -/
theorem readKey_eq_pollCounting {timeout : UInt32} (h : timeout ≠ 0) :
    Platform.readKey timeout = pollCounting timeout 0 := by
  rw [Platform.readKey, if_pos h, pollCounting_eq (pollsIn timeout) 0 rfl]

/-- What an answer of the inner loop comes to. -/
def goOn (p : Platform) (key : Key) (deadline reads : Nat) (answer : Option Key) : Uefi Bool :=
  if answer = some key then return true else Boot.waitUntil p.host.toConsole key deadline reads

variable (p : Platform) (key : Key) {deadline : Nat}

theorem waitUntil_over (h : deadline ≤ w.ticks.toNat) (reads : Nat) :
    Boot.waitUntil p.host.toConsole key deadline reads w = .ok false w := by
  cases reads with
  | zero => rfl
  | succ reads => exact congrFun (if_pos h) w

/-- While there is time left, the inner loop has as much of it. -/
theorem waitUntil_left (h : w.ticks.toNat < deadline) (hword : deadline - w.ticks.toNat < UInt32.size) (reads : Nat) :
    Boot.waitUntil p.host.toConsole key deadline (reads + 1) w =
      (pollFor ((deadline - w.ticks.toNat + 9) / 10) >>= goOn p key deadline reads) w := by
  have hmin : min (deadline - w.ticks.toNat) (UInt32.size - 1) = deadline - w.ticks.toNat := by omega
  have htimeout : (UInt32.ofNat (deadline - w.ticks.toNat)).toNat = deadline - w.ticks.toNat :=
    UInt32.toNat_ofNat_of_lt' hword
  have hne : UInt32.ofNat (deadline - w.ticks.toNat) ≠ 0 := by
    intro h0
    rw [h0] at htimeout
    simp at htimeout
    omega
  have hread : Platform.readKey (UInt32.ofNat (deadline - w.ticks.toNat)) =
      pollFor ((deadline - w.ticks.toNat + 9) / 10) := by
    rw [Platform.readKey, if_pos hne, pollsIn, htimeout]
  rw [← hread, ← hmin]
  exact congrFun (if_neg (Nat.not_le.mpr h)) w

end Loops

/-! ## Which polls are made -/

/-- What a poll of a script finds. -/
def foundAt (script : List (Option Key)) (j : Nat) : Option Key := script[j]?.join

/-- How many of the first polls find nothing. -/
def idlePolls (script : List (Option Key)) (j : Nat) : Nat := (List.range j).countP fun i => (foundAt script i).isNone

section Script

variable {script : List (Option Key)} {key k : Key} {n made : Nat}

theorem foundAt_zero (script : List (Option Key)) : foundAt script 0 = script.head?.join := by
  rw [foundAt, List.head?_eq_getElem?]

theorem foundAt_succ (script : List (Option Key)) (j : Nat) : foundAt script (j + 1) = foundAt script.tail j := by
  rw [foundAt, foundAt, List.getElem?_tail]

theorem idlePolls_succ_of_none (h : script.head?.join = none) (j : Nat) :
    idlePolls script (j + 1) = idlePolls script.tail j + 1 := by
  simp [idlePolls, List.range_succ_eq_map, List.countP_map, foundAt_zero, foundAt_succ, h, Function.comp_def]

theorem idlePolls_succ_of_some (h : script.head?.join = some k) (j : Nat) :
    idlePolls script (j + 1) = idlePolls script.tail j := by
  simp [idlePolls, List.range_succ_eq_map, List.countP_map, foundAt_zero, foundAt_succ, h, Function.comp_def]

theorem idlePolls_succ_le (script : List (Option Key)) (j : Nat) :
    idlePolls script (j + 1) ≤ idlePolls script j + 1 := by
  rw [idlePolls, idlePolls, List.range_succ, List.countP_append]
  exact Nat.add_le_add_left List.countP_le_length _

/-- With `n` intervals to go, these are the polls that are made: before each of them the key has not
    come, and before the poll in front of it fewer than `n` have found nothing. -/
def Made (key : Key) (n : Nat) (script : List (Option Key)) (made : Nat) : Prop :=
  ∀ j, j < made ↔ (j = 0 ∨ idlePolls script (j - 1) < n) ∧ ∀ i < j, foundAt script i ≠ some key

namespace Made

/-- Without an interval to go there is one poll more. -/
theorem of_last (key : Key) (script : List (Option Key)) : Made key 0 script 1 := by
  intro j
  constructor
  · intro hj
    exact ⟨.inl (by omega), fun i hi => by omega⟩
  · rintro ⟨hj, -⟩
    omega

/-- The key ends the polls. -/
theorem of_key (h : script.head?.join = some key) (n : Nat) : Made key n script 1 := by
  intro j
  constructor
  · intro hj
    exact ⟨.inl (by omega), fun i hi => by omega⟩
  · rintro ⟨-, hbefore⟩
    by_cases hj : j = 0
    · omega
    · exact absurd (by rw [foundAt_zero, h]) (hbefore 0 (by omega))

theorem step (hkey : script.head?.join ≠ some key) {n' : Nat}
    (hidle : ∀ j, idlePolls script (j + 1) < n' ↔ idlePolls script.tail j < n) (hn : 0 < n')
    (h : Made key n script.tail made) :
    Made key n' script (made + 1) := by
  intro j
  rcases j with _ | j
  · simp
  · have hbefore : (∀ i < j + 1, foundAt script i ≠ some key) ↔ ∀ i < j, foundAt script.tail i ≠ some key := by
      constructor
      · intro hall i hi
        rw [← foundAt_succ]
        exact hall (i + 1) (by omega)
      · intro hall i hi
        rcases i with _ | i
        · rwa [foundAt_zero]
        · rw [foundAt_succ]
          exact hall i (by omega)
    have htime : (j + 1 = 0 ∨ idlePolls script (j + 1 - 1) < n') ↔ (j = 0 ∨ idlePolls script.tail (j - 1) < n) := by
      rcases j with _ | j
      · simpa [idlePolls] using hn
      · simpa using hidle j
    rw [hbefore, htime, ← h j]
    omega

/-- A poll that finds nothing takes an interval. -/
theorem of_idle (hnone : script.head?.join = none) (h : Made key n script.tail made) :
    Made key (n + 1) script (made + 1) := by
  refine h.step (by simp [hnone]) (fun j => ?_) (Nat.succ_pos n)
  rw [idlePolls_succ_of_none hnone, Nat.add_lt_add_iff_right]

/-- Another key takes none. -/
theorem of_other (hsome : script.head?.join = some k) (hne : k ≠ key) (h : Made key (n + 1) script.tail made) :
    Made key (n + 1) script (made + 1) := by
  refine h.step (by simp [hsome, hne]) (fun j => ?_) (Nat.succ_pos n)
  rw [idlePolls_succ_of_some hsome]

theorem pos (h : Made key n script made) : 0 < made := (h 0).mpr ⟨.inl rfl, fun i hi => by omega⟩

/-- Before the last poll, no more intervals are used up than there are. -/
theorem idle_le (h : Made key n script made) : idlePolls script (made - 1) ≤ n := by
  have hpos := h.pos
  rcases ((h (made - 1)).mp (by omega)).1 with hone | hlt
  · rw [hone]
    exact Nat.zero_le n
  · have hle := idlePolls_succ_le script (made - 1 - 1)
    by_cases hone : made - 1 = 0
    · rw [hone]
      exact Nat.zero_le n
    · rw [Nat.sub_add_cancel (Nat.pos_of_ne_zero hone)] at hle
      omega

/-- If the key has not come, all of them are. -/
theorem idle_eq (h : Made key n script made) (hkey : ∀ i < made, foundAt script i ≠ some key) :
    idlePolls script (made - 1) = n := by
  refine Nat.le_antisymm h.idle_le (Nat.le_of_not_lt fun hlt => ?_)
  exact Nat.lt_irrefl made ((h made).mpr ⟨.inr hlt, hkey⟩)

end Made

end Script

/-! ## The whole wait -/

section Wait

variable {w : World} {key k : Key} {n : Nat} {r : EStateM.Result Halt World Bool}

/-- Where a wait with `n` intervals to go ends: behind the polls that are made, with an interval behind
    each of them that has found nothing, but for the last. -/
def Awaited (key : Key) (n : Nat) (w : World) (r : EStateM.Result Halt World Bool) : Prop :=
  ∃ made pressed, r = .ok pressed (w.passed made (idlePolls w.keyScript (made - 1))) ∧ Made key n w.keyScript made ∧
    (pressed = true ↔ ∃ j < made, foundAt w.keyScript j = some key)

namespace Awaited

theorem of_first {pressed : Bool} (hmade : Made key n w.keyScript 1)
    (hpressed : pressed = true ↔ w.keyScript.head?.join = some key) : Awaited key n w (.ok pressed (w.passed 1 0)) := by
  refine ⟨1, pressed, rfl, hmade, ?_⟩
  rw [hpressed, ← foundAt_zero]
  constructor
  · intro hfound
    exact ⟨0, Nat.one_pos, hfound⟩
  · rintro ⟨j, hj, hfound⟩
    rwa [Nat.lt_one_iff.mp hj] at hfound

/-- One poll more in front. -/
theorem of_rest {n' intervals : Nat} (hkey : w.keyScript.head?.join ≠ some key)
    (hmade : ∀ made, Made key n w.keyScript.tail made → Made key n' w.keyScript (made + 1))
    (hidle : ∀ j, idlePolls w.keyScript (j + 1) = idlePolls w.keyScript.tail j + intervals)
    (h : Awaited key n (w.passed 1 intervals) r) : Awaited key n' w r := by
  have htail : (w.passed 1 intervals).keyScript = w.keyScript.tail := by
    rw [World.keyScript_passed, List.drop_one]
  rw [Awaited, htail] at h
  obtain ⟨made, pressed, rfl, hm, hp⟩ := h
  have hpos := hm.pos
  refine ⟨made + 1, pressed, ?_, hmade made hm, ?_⟩
  · have hlast := hidle (made - 1)
    rw [Nat.sub_add_cancel hpos] at hlast
    rw [World.passed_passed, Nat.add_sub_cancel, hlast, Nat.add_comm 1, Nat.add_comm intervals]
  · rw [hp]
    constructor
    · rintro ⟨j, hj, hfound⟩
      exact ⟨j + 1, by omega, by rwa [foundAt_succ]⟩
    · rintro ⟨j, hj, hfound⟩
      rcases j with _ | j
      · rw [foundAt_zero] at hfound
        exact absurd hfound hkey
      · rw [foundAt_succ] at hfound
        exact ⟨j, by omega, hfound⟩

theorem of_idle (hnone : w.keyScript.head?.join = none) (h : Awaited key n (w.passed 1 1) r) :
    Awaited key (n + 1) w r :=
  of_rest (by simp [hnone]) (fun _ => Made.of_idle hnone) (fun j => idlePolls_succ_of_none hnone j) h

theorem of_other (hsome : w.keyScript.head?.join = some k) (hne : k ≠ key)
    (h : Awaited key (n + 1) (w.passed 1 0) r) : Awaited key (n + 1) w r :=
  of_rest (by simp [hsome, hne]) (fun _ => Made.of_other hsome hne) (fun j => idlePolls_succ_of_some hsome j) h

end Awaited

/-- The two loops from a poll on: with `n` intervals to go until the deadline, the wait is over when they
    are used up, or when the key comes. -/
theorem pollFor_run (p : Platform) (key : Key) {deadline : Nat} (n : Nat) (w : World) (reads : Nat)
    (hreads : w.keyScript.length ≤ reads) (hn : n = (deadline - w.ticks.toNat + 9) / 10)
    (hword : deadline - w.ticks.toNat < UInt32.size) (hclock : w.ticks.toNat + 10 * n < UInt64.size) :
    Awaited key n w ((pollFor n >>= goOn p key deadline reads) w) := by
  have htail (w : World) (intervals : Nat) : (w.passed 1 intervals).keyScript.length = w.keyScript.length - 1 := by
    rw [World.keyScript_passed, List.length_drop]
  induction n generalizing w reads with
  | zero =>
    -- the deadline has passed, so whatever the poll finds there is no other
    have hover : deadline ≤ (w.passed 1 0).ticks.toNat := by
      rw [World.toNat_ticks_passed w 1 0 (by omega)]
      omega
    cases hhead : w.keyScript.head?.join with
    | none =>
      rw [bind_of_ok (pollFor_zero_of_none hhead), goOn, if_neg (by simp), waitUntil_over p key hover]
      exact .of_first (.of_last key _) (by simp [hhead])
    | some k =>
      rw [bind_of_ok (pollFor_of_some hhead 0), goOn]
      by_cases hk : some k = some key
      · rw [if_pos hk]
        exact .of_first (.of_last key _) (by simp [hhead, hk])
      · rw [if_neg hk, waitUntil_over p key hover]
        exact .of_first (.of_last key _) (by simp [hhead, hk])
  | succ n ih =>
    have hidle (w : World) (reads : Nat) (hreads : w.keyScript.length ≤ reads)
        (hn : n + 1 = (deadline - w.ticks.toNat + 9) / 10) (hword : deadline - w.ticks.toNat < UInt32.size)
        (hclock : w.ticks.toNat + 10 * (n + 1) < UInt64.size) (hhead : w.keyScript.head?.join = none) :
        Awaited key (n + 1) w ((pollFor (n + 1) >>= goOn p key deadline reads) w) := by
      have hticks : (w.passed 1 1).ticks.toNat = w.ticks.toNat + 10 := World.toNat_ticks_passed w 1 1 (by omega)
      rw [bind_congr_run (pollFor_succ_of_none hhead n)]
      exact .of_idle hhead (ih (w.passed 1 1) reads (by rw [htail]; omega) (by omega) (by omega) (by omega))
    -- other keys come one behind the other, and each takes one read away
    induction reads generalizing w with
    | zero =>
      have hempty : w.keyScript = [] := List.eq_nil_of_length_eq_zero (by omega)
      exact hidle w 0 hreads hn hword hclock (by rw [hempty]; rfl)
    | succ reads ihreads =>
      cases hhead : w.keyScript.head?.join with
      | none => exact hidle w _ hreads hn hword hclock hhead
      | some k =>
        rw [bind_of_ok (pollFor_of_some hhead (n + 1)), goOn]
        by_cases hk : k = key
        · rw [if_pos (by rw [hk])]
          exact .of_first (.of_key (by rw [hhead, hk]) _) (by simp [hhead, hk])
        · -- the clock stands where it stood, so as many intervals are to go
          have hticks : (w.passed 1 0).ticks.toNat = w.ticks.toNat := World.toNat_ticks_passed w 1 0 (by omega)
          have hrest := ihreads (w.passed 1 0) (by rw [htail]; omega) (by rw [hticks]; exact hn)
            (by rw [hticks]; exact hword) (by rw [hticks]; exact hclock)
          rw [if_neg (by simp [hk]), waitUntil_left p key (by omega) (by omega), hticks, ← hn]
          exact .of_other hhead hk hrest

theorem Awaited.unique {r' : EStateM.Result Halt World Bool} (h : Awaited key n w r) (h' : Awaited key n w r') :
    r = r' := by
  obtain ⟨made, pressed, rfl, hm, hp⟩ := h
  obtain ⟨made', pressed', rfl, hm', hp'⟩ := h'
  have hmade : made = made' := Nat.le_antisymm
    (Nat.le_of_not_lt fun hlt => Nat.lt_irrefl made' ((hm' made').mpr ((hm made').mp hlt)))
    (Nat.le_of_not_lt fun hlt => Nat.lt_irrefl made ((hm made).mpr ((hm' made).mp hlt)))
  subst hmade
  have hpressed : pressed = pressed' := by
    rw [Bool.eq_iff_iff, hp, hp']
  rw [hpressed]

/-- How a wait for a key goes on a firmware, and where it ends. -/
structure KeyWait (key : Key) (delay : UInt32) (w : World) (pressed : Bool) (w' : World) : Prop where
  /-- The polls that are made: the one before each of them is begun within the delay, at ten milliseconds
      for each poll that found nothing, and the key has not come before it. Behind all that find nothing
      there is an interval, but for the last. -/
  exists_polls : ∃ made,
    (∀ j, j < made ↔ 10 * idlePolls w.keyScript (j - 1) < delay.toNat ∧ ∀ i < j, foundAt w.keyScript i ≠ some key) ∧
      (pressed = true ↔ ∃ j < made, foundAt w.keyScript j = some key) ∧
      w' = w.passed made (idlePolls w.keyScript (made - 1)) ∧
      w'.ticks.toNat = w.ticks.toNat + 10 * idlePolls w.keyScript (made - 1)
  /-- In vain it takes the delay, rounded up to whole intervals. -/
  elapsed : pressed = false → w'.ticks.toNat = w.ticks.toNat + 10 * ((delay.toNat + 9) / 10)
  punctual : pressed = false →
    w.ticks.toNat + delay.toNat ≤ w'.ticks.toNat ∧ w'.ticks.toNat < w.ticks.toNat + delay.toNat + 10

/-- A wait without a delay makes no poll. -/
theorem keyWait_zero (key : Key) (w : World) : KeyWait key 0 w false w where
  exists_polls := by
    refine ⟨0, fun j => by simp, by simp, ?_, rfl⟩
    simp [World.passed, idlePolls]
  elapsed := fun _ => rfl
  punctual := fun _ => ⟨Nat.le_refl _, by simp⟩

theorem keyWait_of_awaited {delay : UInt32} {pressed : Bool} {w' : World} (hpos : 0 < delay.toNat)
    (hclock : w.ticks.toNat + delay.toNat + 10 ≤ UInt64.size)
    (h : Awaited key ((delay.toNat + 9) / 10) w (.ok pressed w')) : KeyWait key delay w pressed w' := by
  obtain ⟨made, pressed, hr, hm, hp⟩ := h
  cases hr
  have hticks : (w.passed made (idlePolls w.keyScript (made - 1))).ticks.toNat =
      w.ticks.toNat + 10 * idlePolls w.keyScript (made - 1) := by
    have hle := hm.idle_le
    exact World.toNat_ticks_passed w _ _ (by omega)
  have helapsed (hvain : pressed = false) : idlePolls w.keyScript (made - 1) = (delay.toNat + 9) / 10 := by
    refine hm.idle_eq fun i hi hfound => ?_
    rw [hp.mpr ⟨i, hi, hfound⟩] at hvain
    cases hvain
  refine ⟨⟨made, fun j => ?_, hp, rfl, hticks⟩, fun hvain => ?_, fun hvain => ?_⟩
  · rw [hm j]
    refine and_congr_left fun _ => ?_
    rcases j with _ | j
    · simpa [idlePolls] using hpos
    · simp only [Nat.succ_ne_zero, false_or]
      omega
  · rw [hticks, helapsed hvain]
  · rw [hticks, helapsed hvain]
    omega

/-- A wait ends, with the key or when its time is up. The key counts if one of the polls finds it that
    are made before the time is up; other keys change nothing about when that is. However many reads the
    loop is allowed, it makes no more. -/
theorem waitForKey_polls (p : Platform) (key : Key) (delay : UInt32) (w : World)
    (hclock : w.ticks.toNat + delay.toNat + 10 ≤ UInt64.size) :
    ∃ pressed w', Boot.waitForKey p.host.toConsole key delay w = .ok pressed w' ∧ KeyWait key delay w pressed w' ∧
      ∀ reads, w.keys.length + 2 ≤ reads →
        Boot.waitUntil p.host.toConsole key (w.ticks.toNat + delay.toNat) reads w = .ok pressed w' := by
  have hwait : Boot.waitForKey p.host.toConsole key delay w =
      Boot.waitUntil p.host.toConsole key (w.ticks.toNat + delay.toNat) (w.keys.length + 2) w := rfl
  rcases Nat.eq_zero_or_pos delay.toNat with hzero | hpos
  · have hover (reads : Nat) := waitUntil_over (w := w) p key (Nat.le_of_eq (congrArg (w.ticks.toNat + ·) hzero)) reads
    have hdelay : delay = 0 := UInt32.toNat_inj.mp hzero
    refine ⟨false, w, by rw [hwait, hover], ?_, fun reads _ => hover reads⟩
    rw [hdelay]
    exact keyWait_zero key w
  · have hdelay := delay.toNat_lt
    have hlength : w.keyScript.length ≤ w.keys.length := by
      rw [World.keyScript]
      split <;> simp
    have hrun (reads : Nat) (hreads : w.keys.length + 2 ≤ reads) : Awaited key ((delay.toNat + 9) / 10) w
        (Boot.waitUntil p.host.toConsole key (w.ticks.toNat + delay.toNat) reads w) := by
      obtain ⟨reads, rfl⟩ := Nat.exists_eq_add_one_of_ne_zero (show reads ≠ 0 by omega)
      rw [waitUntil_left p key (by omega) (by simpa using hdelay), Nat.add_sub_cancel_left]
      exact pollFor_run p key _ w reads (by omega) (by omega) (by simpa using hdelay) (by omega)
    have hfirst := hrun _ (Nat.le_refl _)
    rw [← hwait] at hfirst
    obtain ⟨made, pressed, hr, -⟩ := id hfirst
    refine ⟨pressed, _, hr, ?_, fun reads hreads => ?_⟩
    · rw [hr] at hfirst
      exact keyWait_of_awaited hpos hclock hfirst
    · rw [← hr]
      exact (hrun reads hreads).unique hfirst

/-- Does the run end in this value, at this time? -/
def endsAt (r : EStateM.Result Halt World Bool) (pressed : Bool) (ticks : UInt64) : Bool :=
  match r with
  | .ok a w' => a == pressed && w'.ticks == ticks
  | .error _ _ => false

/-- A wait of 25 milliseconds is three intervals long, whatever other keys come; behind the third there is
    one poll more, in which the key still counts. -/
theorem waitForKey_last_poll :
    let arrow : Option Stroke := some ⟨1, 0, .success⟩
    let escape : Option Stroke := some ⟨0x17, 0, .success⟩
    let p : Platform := ⟨bootDevice, false, false, false⟩
    let inTime : World := { keys := [none, arrow, none, none, escape] }
    let late : World := { keys := [none, arrow, none, arrow, none, arrow, escape] }
    (∃ w', w'.ticks = 30 ∧ KeyWait .escape 25 inTime true w') ∧
      ∃ w', w'.ticks = 30 ∧ Boot.waitForKey p.host.toConsole .escape 25 late = .ok false w' ∧
        KeyWait .escape 25 late false w' := by
  intro arrow escape p inTime late
  obtain ⟨pressed, v, hr, hv, -⟩ := waitForKey_polls p .escape 25 inTime (by decide)
  obtain ⟨pressed', v', hr', hv', -⟩ := waitForKey_polls p .escape 25 late (by decide)
  have hends : endsAt (Boot.waitForKey p.host.toConsole .escape 25 inTime) true 30 = true := by decide +kernel
  have hends' : endsAt (Boot.waitForKey p.host.toConsole .escape 25 late) false 30 = true := by decide +kernel
  rw [hr, endsAt, Bool.and_eq_true, beq_iff_eq, beq_iff_eq] at hends
  rw [hr', endsAt, Bool.and_eq_true, beq_iff_eq, beq_iff_eq] at hends'
  obtain ⟨rfl, ht⟩ := hends
  obtain ⟨rfl, ht'⟩ := hends'
  exact ⟨⟨v, ht, hv⟩, v', ht', hr', hv'⟩

end Wait

end NetBoot.Uefi
