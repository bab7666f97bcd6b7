/-
  NetBoot.Proofs.Menu.Countdown — the countdown in front of a menu.

  With a time limit of T seconds the prompt reads a key a second, until a key comes or T reads have
  come to nothing (`readsWithin`); before each read the seconds that are left stand at one place of
  the screen (`rounds`). Without a limit it reads once, and waits. The loop is followed by one
  induction on the seconds that are left (`countdown_run`). A round takes the head off the script
  (`readsWithin_succ`, `answers_succ`), and what rounds leave of the machine adds up (`Polled.trans`):
  keys taken, time limits asked, and time passed, that of the reads that nothing answered.
-/

import NetBoot.Proofs.Menu.Browsing

namespace NetBoot

open Sim

/-! ## Reads -/

namespace Sim

variable {w w' w'' : World}

/-- The machine, with its keys, its screen, its clock and its events left out. -/
def World.offConsole (w : World) : World :=
  { w with keys := [], keyTimeouts := [], clock := 0, cursor := (0, 0), highlight := false, clears := 0, events := #[] }

/-- Keys have been read with one time limit, with these answers, and this is what was seen of it.
    A read that nothing answered has taken its whole time. -/
structure Polled (wait : UInt32) (answers : List (Option Key)) (es : List Event) (w w' : World) : Prop where
  shown : Noted es w w'
  keys : w'.keys = w.keys.drop answers.length
  timeouts : w'.keyTimeouts = w.keyTimeouts ++ List.replicate answers.length wait
  clock : w'.clock.toNat = (w.clock.toNat + wait.toNat * answers.count none) % UInt64.size
  rest : w'.offConsole = w.offConsole

namespace Polled

variable {wait : UInt32} {answers answers' : List (Option Key)} {es es' : List Event}

/-- Something is shown and nothing read. -/
theorem unread (hn : Noted es w w') (hk : w'.keys = w.keys) (ht : w'.keyTimeouts = w.keyTimeouts)
    (hc : w'.clock = w.clock) (hr : w'.offConsole = w.offConsole) : Polled wait [] es w w' where
  shown := hn
  keys := hk
  timeouts := by simp [ht]
  clock := by
    rw [hc, List.count_nil, Nat.mul_zero, Nat.add_zero]
    exact (Nat.mod_eq_of_lt w.clock.toNat_lt).symm
  rest := hr

theorem trans (h : Polled wait answers es w w') (h' : Polled wait answers' es' w' w'') :
    Polled wait (answers ++ answers') (es ++ es') w w'' where
  shown := h.shown.trans h'.shown
  keys := by rw [h'.keys, h.keys, List.drop_drop, List.length_append]
  timeouts := by rw [h'.timeouts, h.timeouts, List.length_append, List.append_assoc, List.replicate_append_replicate]
  clock := by
    rw [h'.clock, h.clock, List.count_append, Nat.mul_add, Nat.mod_add_mod, Nat.add_assoc]
  rest := h'.rest.trans h.rest

end Polled

/-- A read that comes back answers with the next key of the script, if it is not used up. -/
theorem readKey_polled {wait : UInt32} (h : wait ≠ 0 ∨ w.keys ≠ []) :
    ∃ w', readKey wait w = .ok w.keys.head?.join w' ∧
      Polled wait [w.keys.head?.join] [.readKey wait (some w.keys.head?.join)] w w' := by
  have hpassed (time : UInt64) : (w.clock + time).toNat = (w.clock.toNat + time.toNat * 1) % UInt64.size := by
    rw [UInt64.toNat_add, Nat.mul_one]
  have hclock : w.clock.toNat = (w.clock.toNat + wait.toNat * 0) % UInt64.size := by
    rw [Nat.mul_zero, Nat.add_zero, Nat.mod_eq_of_lt w.clock.toNat_lt]
  unfold readKey
  rw [get_bind]
  rcases hk : w.keys with _ | ⟨_ | key, keys⟩
  · have hwait : wait ≠ 0 := h.resolve_right fun hne => hne hk
    dsimp only
    rw [if_neg hwait]
    refine ⟨_, rfl, .push rfl, ?_, rfl, hpassed _, rfl⟩
    rw [hk]
    rfl
  · refine ⟨_, rfl, .push rfl, ?_, rfl, hpassed _, rfl⟩
    rw [hk]
    rfl
  · refine ⟨_, rfl, .push rfl, ?_, rfl, hclock, rfl⟩
    rw [hk]
    rfl

/-- A read without a time limit is not answered when there is no key left. -/
theorem readKey_unanswered (hk : w.keys = []) :
    ∃ w', readKey 0 w = .error .noKeyLeft w' ∧ Noted [.readKey 0 none] w w' ∧
      w'.keyTimeouts = w.keyTimeouts ++ [0] ∧ w'.clock = w.clock := by
  unfold readKey
  rw [get_bind, hk]
  exact ⟨_, rfl, .push rfl, rfl, rfl⟩

end Sim

namespace Menu

variable {w : World} {m : Menu}

/-! ## The script of the keys -/

/-- The position of the first key, counted from 1. -/
def firstKey? (script : List (Option Key)) : Option Nat := (script.findIdx? Option.isSome).map (· + 1)

/-- How many reads there are: up to the first key, and no more than so many. -/
def readsWithin (limit : Nat) (script : List (Option Key)) : Nat :=
  match firstKey? script with
  | some position => if position ≤ limit then position else limit
  | none => limit

/-- What the first reads answer; behind the end of the script nothing comes. -/
def answers (script : List (Option Key)) (reads : Nat) : List (Option Key) :=
  (List.range reads).map fun j => script[j]?.join

/-- The first read is the last if it gives a key. -/
theorem readsWithin_succ (limit : Nat) (script : List (Option Key)) :
    readsWithin (limit + 1) script = if script.head?.join.isSome then 1 else readsWithin limit script.tail + 1 := by
  rcases script with _ | ⟨_ | key, script⟩
  · rfl
  · have hfirst : firstKey? (none :: script) = (firstKey? script).map (· + 1) := by
      simp [firstKey?, List.findIdx?_cons, Function.comp_def]
    rw [readsWithin, hfirst]
    simp only [List.head?_cons, Option.join_some, Option.isSome_none, Bool.false_eq_true, if_false, List.tail_cons]
    rw [readsWithin]
    cases firstKey? script with
    | none => rfl
    | some position =>
      simp only [Option.map_some, Nat.add_le_add_iff_right]
      split <;> rfl
  · have hfirst : firstKey? (some key :: script) = some 1 := by simp [firstKey?, List.findIdx?_cons]
    rw [readsWithin, hfirst]
    simp

/-- There is a read, unless there is no second for one. -/
theorem readsWithin_ne_zero (limit : Nat) (script : List (Option Key)) : readsWithin (limit + 1) script ≠ 0 := by
  rw [readsWithin_succ]
  split
  · exact Nat.one_ne_zero
  · exact Nat.succ_ne_zero _

theorem readsWithin_one (script : List (Option Key)) : readsWithin 1 script = 1 := by
  have hzero : readsWithin 0 script.tail = 0 := by
    unfold readsWithin
    split
    · split <;> omega
    · rfl
  rw [readsWithin_succ, hzero, Nat.zero_add, ite_self]

theorem answers_succ (script : List (Option Key)) (reads : Nat) :
    answers script (reads + 1) = script.head?.join :: answers script.tail reads := by
  simp [answers, List.range_succ_eq_map, Function.comp_def, List.head?_eq_getElem?]

/-! ## The loop -/

/-- A round of the countdown: at its place stand the seconds that are left, and a key is read. -/
def round (place : Nat × Nat) (wait : UInt32) (left : Nat) (outcome : Option (Option Key)) : List Event :=
  [.setCursor place.1 place.2, .print "(", .print s!"{left}", .print ") ", .readKey wait outcome]

/-- The rounds of a countdown from so many seconds, with what they are answered. -/
def rounds (place : Nat × Nat) (wait : UInt32) (seconds : Nat) (answers : List (Option Key)) : List Event :=
  (answers.mapIdx fun j answer => round place wait (seconds - j) (some answer)).flatten

theorem rounds_cons (place : Nat × Nat) (wait : UInt32) (seconds : Nat) (answer : Option Key)
    (answers : List (Option Key)) :
    rounds place wait seconds (answer :: answers) =
      round place wait seconds (some answer) ++ rounds place wait (seconds - 1) answers := by
  have hshift : (fun j answer => round place wait (seconds - (j + 1)) (some answer)) =
      fun j answer => round place wait (seconds - 1 - j) (some answer) := by
    funext j answer
    rw [Nat.sub_sub, Nat.add_comm 1 j]
  rw [rounds, List.mapIdx_cons, List.flatten_cons, hshift]
  rfl

theorem machine_eq_machineWith (n : Nat) : ∃ launch, machine n = machineWith launch := by
  cases n with
  | zero => exact ⟨_, rfl⟩
  | succ n => exact ⟨_, rfl⟩

section Runs

variable (launch : Handle → Bytes → Sim (Except Image.LoadError Exit)) {wait : UInt32}

/-- What follows a round with this answer. -/
def next (host : Host Sim) (place : Nat × Nat) (wait : UInt32) (left : Nat) (answer : Option Key) : Sim (Option Key) :=
  if answer.isSome ∨ left ≤ 1 then return answer else countdown host place.1 place.2 wait (left - 1)

theorem left_run (wait : UInt32) (place : Nat × Nat) (text : String) (f : Sim (Option Key)) (w : World) :
    ∃ v, (do
        (machineWith launch).setCursor place.1 place.2
        (machineWith launch).toConsole.say ["(", text, ") "]
        f : Sim (Option Key)) w = f v ∧
      Polled wait [] [.setCursor place.1 place.2, .print "(", .print text, .print ") "] w v :=
  ⟨_, rfl, .unread (by simp [Noted]) rfl rfl rfl rfl⟩

/-- What stands before a read is shown, and the read is next. -/
theorem countdown_shows (wait : UInt32) (place : Nat × Nat) (left : Nat) (w : World) :
    ∃ v, countdown (machineWith launch) place.1 place.2 wait left w =
        (readKey wait >>= next (machineWith launch) place wait left) v ∧
      Polled wait [] [.setCursor place.1 place.2, .print "(", .print s!"{left}", .print ") "] w v := by
  obtain ⟨v, hv, hshown⟩ :=
    left_run launch wait place s!"{left}" (readKey wait >>= next (machineWith launch) place wait left) w
  refine ⟨v, ?_, hshown⟩
  rw [← hv]
  cases left with
  | zero =>
    have hlast : next (machineWith launch) place wait 0 = pure := funext fun answer => if_pos (.inr (Nat.zero_le 1))
    rw [hlast, bind_pure]
    rfl
  | succ left =>
    rw [countdown]
    refine congrFun (bind_congr fun _ => bind_congr fun _ => bind_congr fun answer => ?_) w
    cases answer with
    | none => simp [next]
    | some key => simp [next]

theorem countdown_round (place : Nat × Nat) (left : Nat) {w : World} (h : wait ≠ 0 ∨ w.keys ≠ []) :
    ∃ v, countdown (machineWith launch) place.1 place.2 wait left w =
        next (machineWith launch) place wait left w.keys.head?.join v ∧
      Polled wait [w.keys.head?.join] (round place wait left (some w.keys.head?.join)) w v := by
  obtain ⟨u, hu, hshown⟩ := countdown_shows launch wait place left w
  have hkeys : u.keys = w.keys := hshown.keys
  rw [← hkeys] at h
  obtain ⟨v, hv, hread⟩ := readKey_polled h
  rw [hkeys] at hv hread
  exact ⟨v, by rw [hu, bind_of_ok hv], hshown.trans hread⟩

/-- A countdown reads once for each answer up to the last, and comes to that. -/
theorem countdown_run (hwait : wait ≠ 0) (place : Nat × Nat) (left : Nat) (w : World) :
    ∃ v, countdown (machineWith launch) place.1 place.2 wait (left + 1) w =
        .ok (answers w.keys (readsWithin (left + 1) w.keys)).getLast?.join v ∧
      Polled wait (answers w.keys (readsWithin (left + 1) w.keys))
        (rounds place wait (left + 1) (answers w.keys (readsWithin (left + 1) w.keys))) w v := by
  induction left generalizing w with
  | zero =>
    obtain ⟨v, hv, hround⟩ := countdown_round launch (w := w) place 1 (.inl hwait)
    rw [readsWithin_one, answers_succ, hv, next, if_pos (.inr (Nat.le_refl 1))]
    exact ⟨v, rfl, hround⟩
  | succ left ih =>
    obtain ⟨v, hv, hround⟩ := countdown_round launch (w := w) place (left + 2) (.inl hwait)
    rw [readsWithin_succ, hv, next]
    by_cases hkey : w.keys.head?.join.isSome = true
    · rw [if_pos hkey, answers_succ, if_pos (.inl hkey)]
      exact ⟨v, rfl, hround⟩
    · -- No key has come: the rounds that follow are those of a second less, on the rest of the script.
      have htail : v.keys = w.keys.tail := by
        rw [hround.keys]
        exact List.drop_one
      obtain ⟨v', hv', hrest⟩ := ih v
      rw [htail] at hv' hrest
      rw [if_neg hkey, answers_succ, rounds_cons, if_neg (by simp [hkey])]
      have hlast : (w.keys.head?.join :: answers w.keys.tail (readsWithin (left + 1) w.keys.tail)).getLast? =
          (answers w.keys.tail (readsWithin (left + 1) w.keys.tail)).getLast? := by
        obtain ⟨reads, hreads⟩ := Nat.exists_eq_succ_of_ne_zero (readsWithin_ne_zero left w.keys.tail)
        rw [hreads, Nat.succ_eq_add_one, answers_succ, List.getLast?_cons_cons]
      rw [hlast]
      exact ⟨v', hv', hround.trans hrest⟩

/-! ## The prompt -/

/-- What stands above the countdown. -/
def opening (m : Menu) : List Event :=
  .clear :: header ++ [.print " PXE BootClient [Server: ", .print m.serverName, .print "] "]

/-- What takes the place of the countdown when it is over. -/
def closing (place : Nat × Nat) : List Event := [.setCursor place.1 place.2, .print "     "]

/-- Where the cursor stands behind the opening. -/
def place (w : World) : Nat × Nat := w.fixedCursor.getD (0, 0)

/-- What a prompt comes to: with a limit it reads a key a second until there is one or the time is
    up, without a limit it reads once; and the list is asked for with F8. -/
inductive Prompts (m : Menu) (w : World) : EStateM.Result Abort World Bool → Prop
  | timed {reads : Nat} {asked : Bool} {w' : World} : 0 < m.timeout → reads = readsWithin m.timeout w.keys →
    Polled 1000 (answers w.keys reads)
      (opening m ++ rounds (place w) 1000 m.timeout (answers w.keys reads) ++ closing (place w)) w w' →
    (asked = true ↔ (answers w.keys reads).getLast? = some (some (.function 8))) → Prompts m w (.ok asked w')
  | untimed {key : Option Key} {keys : List (Option Key)} {asked : Bool} {w' : World} :
    m.timeout = 0 → w.keys = key :: keys →
    Polled 0 [key] (opening m ++ round (place w) 0 0 (some key) ++ closing (place w)) w w' →
    (asked = true ↔ key = some (.function 8)) → Prompts m w (.ok asked w')
  | unanswered {w' : World} : m.timeout = 0 → w.keys = [] →
    Noted (opening m ++ round (place w) 0 0 none) w w' → w'.keyTimeouts = w.keyTimeouts ++ [0] →
    w'.clock = w.clock → Prompts m w (.error .noKeyLeft w')

/-- The default choice, if the menu has one. -/
inductive IsDefault (m : Menu) : Option Selection → Prop
  | named {sel : Selection} : FirstDefault m.choices sel.choice → m.choices[sel.choice - 1]? = some sel.entry →
    sel.defaultChosen = true → IsDefault m (some sel)
  | none : (∀ e ∈ m.choices, e.hasFlag 1 = false) → IsDefault m none

/-- What ends a prompt. -/
def close (host : Host Sim) (place : Nat × Nat) (key : Option Key) : Sim Bool := do
  host.setCursor place.1 place.2
  host.say ["     "]
  return key == some listKey

theorem prompt_opens (wait : UInt32) (m : Menu) (w : World) :
    ∃ v, m.prompt (machineWith launch) w = (countdown (machineWith launch) (place w).1 (place w).2
        (if m.timeout = 0 then 0 else 1000) m.timeout >>= close (machineWith launch) (place w)) v ∧
      Polled wait [] (opening m) w v :=
  ⟨_, rfl, .unread (by simp [Noted, opening, header]) rfl rfl rfl rfl⟩

theorem close_run (wait : UInt32) (place : Nat × Nat) (key : Option Key) (w : World) :
    ∃ v, close (machineWith launch) place key w = .ok (key == some listKey) v ∧
      Polled wait [] (closing place) w v :=
  ⟨_, rfl, .unread (by simp [Noted, closing]) rfl rfl rfl rfl⟩

/-- Without a limit there is one read. -/
theorem prompt_untimed (hzero : m.timeout = 0) (w : World) : Prompts m w (m.prompt (machineWith launch) w) := by
  obtain ⟨u, hu, hopen⟩ := prompt_opens launch 0 m w
  have hkeys : u.keys = w.keys := hopen.keys
  rw [hu, hzero, if_pos rfl]
  cases hk : w.keys with
  | nil =>
    obtain ⟨v, hv, hshown⟩ := countdown_shows launch 0 (place w) 0 u
    have hnone : v.keys = [] := by
      rw [hshown.keys, hkeys, hk]
      rfl
    obtain ⟨w', hw', hread, ht, hc⟩ := readKey_unanswered hnone
    have hout : countdown (machineWith launch) (place w).1 (place w).2 0 0 u = .error .noKeyLeft w' := by
      rw [hv, bind_of_error hw']
    have hbefore := hopen.trans hshown
    rw [bind_of_error hout]
    refine .unanswered hzero hk ?_ ?_ ?_
    · exact hopen.shown.trans (hshown.shown.trans hread)
    · rw [ht, hbefore.timeouts]
      simp
    · rw [hc, ← UInt64.toNat_inj, hbefore.clock]
      simp
  | cons key keys =>
    have hsome : (0 : UInt32) ≠ 0 ∨ u.keys ≠ [] := .inr (by simp [hkeys, hk])
    obtain ⟨v, hv, hround⟩ := countdown_round launch (place w) 0 hsome
    rw [hkeys, hk, next, if_pos (.inr (Nat.zero_le 1))] at hv
    rw [hkeys, hk] at hround
    obtain ⟨w', hw', hclose⟩ := close_run launch 0 (place w) key v
    rw [bind_of_ok hv]
    show Prompts m w (close _ _ key v)
    rw [hw']
    exact .untimed hzero hk ((hopen.trans hround).trans hclose) (by simp [listKey])

/-- With a limit the loop makes the reads. -/
theorem prompt_timed (hpos : 0 < m.timeout) (w : World) : Prompts m w (m.prompt (machineWith launch) w) := by
  obtain ⟨left, hleft⟩ := Nat.exists_eq_add_one_of_ne_zero (Nat.pos_iff_ne_zero.mp hpos)
  obtain ⟨u, hu, hopen⟩ := prompt_opens launch 1000 m w
  have hkeys : u.keys = w.keys := hopen.keys
  have hwait : (1000 : UInt32) ≠ 0 := by decide
  obtain ⟨v, hv, hrounds⟩ := countdown_run launch hwait (place w) left u
  rw [← hleft, hkeys] at hv hrounds
  obtain ⟨w', hw', hclose⟩ := close_run launch 1000 (place w) _ v
  rw [hu, if_neg (Nat.pos_iff_ne_zero.mp hpos), bind_of_ok hv, hw']
  refine .timed hpos rfl ?_ ?_
  · simpa using (hopen.trans hrounds).trans hclose
  · simp [listKey, Option.join_eq_some_iff]

end Runs

theorem isDefault_default (m : Menu) : IsDefault m (m.default?.bind m.selection?) := by
  cases hd : m.default? with
  | none =>
    rw [default?, Option.map_eq_none_iff, List.findIdx?_eq_none_iff] at hd
    exact .none hd
  | some choice =>
    obtain ⟨before, e, behind, heq, rfl, -⟩ := default?_eq_some_iff.mp hd
    have he : m.choices[before.length + 1 - 1]? = some e := by simp [heq]
    have hsel : m.selection? (before.length + 1) = some ⟨e, before.length + 1, true⟩ :=
      selection?_eq_some_iff.mpr ⟨rfl, Nat.succ_pos _, he, by simp [hd]⟩
    rw [Option.bind_some, hsel]
    exact .named (default?_eq_some_iff.mp hd) he rfl

/-- The prompt reads what its time limit allows and asks for the list for F8 only. Without that the
    default is taken; and a menu with nothing to choose does not prompt. -/
theorem prompt_counts_down (m : Menu) (n : Nat) (w : World) :
    Prompts m w (m.prompt (machine n) w) ∧
      ∀ w', m.prompt (machine n) w = .ok false w' →
        ∃ sel, m.select (machine n) w = .ok sel (if m.isEmpty then w else w') ∧ IsDefault m sel := by
  constructor
  · obtain ⟨launch, hn⟩ := machine_eq_machineWith n
    rw [hn]
    rcases Nat.eq_zero_or_pos m.timeout with hzero | hpos
    · exact prompt_untimed launch hzero w
    · exact prompt_timed launch hpos w
  · intro w' hp
    by_cases hm : m.isEmpty = true
    · have hempty : m.choices = [] := List.isEmpty_iff.mp hm
      refine ⟨none, ?_, .none (by simp [hempty])⟩
      rw [select, if_pos hm, if_pos hm]
      rfl
    · refine ⟨_, ?_, isDefault_default m⟩
      rw [select, if_neg hm, if_neg hm, bind_of_ok hp]
      rfl

/-- A key that is not F8 in the second of three seconds. -/
theorem prompt_windows_pe :
    let entries : List Entry := [⟨.chainload, 5, "Windows PE", "wdsmgfw.efi", "", ""⟩]
    let m : Menu := { entries, timeout := 3, serverName := "server" }
    let w : World := { keys := [none, some .enter] }
    ∃ w', Prompts m w (.ok false w') ∧ w'.keyTimeouts = [1000, 1000] ∧ w'.clock = 1000 ∧
      ∃ sel, m.select (machine 0) w = .ok sel w' ∧ IsDefault m sel := by
  intro entries m w
  obtain ⟨asked, w', hr, ha⟩ := exists_of_endsWith (x := m.prompt (machine 0)) (w := w)
    (p := fun asked w' => !asked && w'.keyTimeouts == [1000, 1000] && w'.clock == 1000) (by decide +kernel)
  simp only [Bool.and_eq_true, Bool.not_eq_true', beq_iff_eq] at ha
  obtain ⟨⟨rfl, ht⟩, hc⟩ := ha
  obtain ⟨hp, hs⟩ := prompt_counts_down m 0 w
  rw [hr] at hp
  exact ⟨w', hp, ht, hc, hs w' hr⟩

end Menu

end NetBoot
