/-
  NetBoot.Proofs.Boot.Contact — what this client does with its operator and its servers.

  Until it runs a program, a boot shows text, reads keys, waits, and asks servers for names and files.
  None of that touches memory, images or traps (`Beside`, `World.inner`), and each step reaches the
  operator or a host that it is for (`Event.IsContact`). One lemma stands for each service of a simulated
  machine; none of them is cut off but by a read of a key that never comes (`Attended`). What a client does
  with them is the same kind of thing (`contact_attends`).
-/

import NetBoot.Proofs.Boot.Transfer
import NetBoot.Proofs.Lifting.Client
import NetBoot.Proofs.Sim.Waiting

namespace NetBoot

namespace Sim

/-- The machine, with what belongs to its console, its network and its log left out. -/
def World.inner (w : World) : World :=
  { w with
    pxeMode := .none, sizeFailures := .empty, reads := [], lookupsNotReady := 0, lookups := [], redirects := []
    keys := [], clock := 0, sleeps := [], keyTimeouts := [], cursor := (0, 0), highlight := false, clears := 0
    events := #[], logLimit := none, log := #[] }

/-- What can be read off the inside of a machine is the same where that is. -/
theorem eq_of_inner_eq {α : Type} {f : World → α} {w w' : World} (hf : ∀ w : World, f w.inner = f w)
    (h : w'.inner = w.inner) : f w' = f w := by
  rw [← hf w', h, hf]

/-- Nothing has changed inside the machine, and what has happened is of one kind. -/
structure Beside (P : Event → Prop) (w w' : World) : Prop where
  inner_eq : w'.inner = w.inner
  events : Emits P w w'

namespace Beside

variable {P Q : Event → Prop} {w w' : World}

theorem ordered (P : Event → Prop) : Ordered (Beside P) where
  refl _ := ⟨rfl, .of_eq rfl⟩
  trans h h' := ⟨h'.inner_eq.trans h.inner_eq, h.events.trans h'.events⟩

theorem mono (h : Beside P w w') (hPQ : ∀ e, P e → Q e) : Beside Q w w' := by
  obtain ⟨es, hn, he⟩ := h.events
  exact ⟨h.inner_eq, es, hn, fun e hm => hPQ e (he e hm)⟩

theorem silent {α : Type} {x : Sim α} {a : α} (hx : Silent x a) : Attended (Beside P) x :=
  .of_total (.silent (fun _ _ => ⟨rfl, .of_eq rfl⟩) hx)

end Beside

/-- Is it for the operator, for one of these servers, or about one of these names? -/
def Event.IsContact (names : String → Prop) (servers : Net.Ipv4 → Prop) : Event → Prop
  | .print _ | .clear | .setCursor .. | .highlight _ | .readKey .. | .sleep _ => True
  | .fileSize server .. | .receiveFile server .. => servers server
  | .resolve name _ => names name
  | _ => False

abbrev Contact (names : String → Prop) (servers : Net.Ipv4 → Prop) : World → World → Prop :=
  Beside (Event.IsContact names servers)

theorem Event.IsContact.mono {names names' : String → Prop} {servers servers' : Net.Ipv4 → Prop} {e : Event}
    (h : e.IsContact names servers) (hn : ∀ name, names name → names' name)
    (hs : ∀ server, servers server → servers' server) : e.IsContact names' servers' := by
  cases e
  case fileSize => exact hs _ h
  case receiveFile => exact hs _ h
  case resolve => exact hn _ h
  all_goals exact h

theorem Event.isAside_of_contact {names : String → Prop} {servers : Net.Ipv4 → Prop} {e : Event}
    (h : e.IsContact names servers) : e.isAside = true := by
  cases e <;> first | rfl | exact h.elim

theorem Contact.aside {names : String → Prop} {servers : Net.Ipv4 → Prop} {w w' : World}
    (h : Contact names servers w w') : Beside (·.isAside = true) w w' :=
  h.mono fun _ => Event.isAside_of_contact

/-! ## Services -/

section Services

variable {names : String → Prop} {servers : Net.Ipv4 → Prop} {n : Nat}

theorem Contact.ordered : Ordered (Contact names servers) := Beside.ordered _

theorem attended_of_run {α : Type} {x : Sim α}
    (h : ∀ w, ∃ a w', x w = .ok a w' ∧ w'.inner = w.inner ∧ Emits (Event.IsContact names servers) w w') :
    Attended (Contact names servers) x :=
  .of_total fun w => have ⟨a, w', hr, hi, he⟩ := h w; ⟨a, w', hr, hi, he⟩

/-- A question that changes nothing. -/
theorem attended_query {α : Type} {x : Sim α} (h : ∀ w, ∃ a, x w = .ok a w) : Attended (Contact names servers) x :=
  attended_of_run fun w => have ⟨a, hr⟩ := h w; ⟨a, w, hr, rfl, .of_eq rfl⟩

/-- How launches are nested is nothing to the console. -/
theorem machineWith_toConsole (launch launch' : Handle → Bytes → Sim (Except Image.LoadError Exit)) :
    (machineWith launch).toConsole = (machineWith launch').toConsole := rfl

theorem machine_toConsole (n : Nat) : (machine n).toConsole = (machine 0).toConsole := by
  cases n with
  | zero => rfl
  | succ n => exact machineWith_toConsole _ _

theorem attended_print (text : String) : Attended (Contact names servers) ((machine n).toConsole.print text) := by
  rw [machine_toConsole]
  exact attended_of_run fun w => ⟨(), _, rfl, rfl, .of_push rfl trivial⟩

theorem attended_clear : Attended (Contact names servers) (machine n).toConsole.clear := by
  rw [machine_toConsole]
  exact attended_of_run fun w => ⟨(), _, rfl, rfl, .of_push rfl trivial⟩

theorem attended_cursor : Attended (Contact names servers) (machine n).toConsole.cursor := by
  rw [machine_toConsole]
  exact attended_query fun w => ⟨_, rfl⟩

theorem attended_setCursor (column row : Nat) :
    Attended (Contact names servers) ((machine n).toConsole.setCursor column row) := by
  rw [machine_toConsole]
  exact attended_of_run fun w => ⟨(), _, rfl, rfl, .of_push rfl trivial⟩

theorem attended_setHighlight (on : Bool) :
    Attended (Contact names servers) ((machine n).toConsole.setHighlight on) := by
  rw [machine_toConsole]
  exact attended_of_run fun w => ⟨(), _, rfl, rfl, .of_push rfl trivial⟩

theorem attended_sleep (ms : UInt32) : Attended (Contact names servers) ((machine n).toConsole.sleep ms) := by
  rw [machine_toConsole]
  exact attended_of_run fun w => ⟨(), _, rfl, rfl, .of_push rfl trivial⟩

theorem attended_ticks : Attended (Contact names servers) (machine n).toConsole.ticks := by
  rw [machine_toConsole]
  exact attended_query fun w => ⟨_, rfl⟩

theorem attended_keysAhead : Attended (Contact names servers) (machine n).toConsole.keysAhead := by
  rw [machine_toConsole]
  exact attended_query fun w => ⟨_, rfl⟩

/-- A key, or nothing in the time that was given; the one read that is cut off is one without a time
    limit, with no key left. -/
theorem attended_readKey (timeout : UInt32) :
    Attended (Contact names servers) ((machine n).toConsole.readKey timeout) := by
  rw [machine_toConsole]
  intro w
  show Settles (readKey timeout) _ w
  unfold readKey Settles
  rw [get_bind]
  dsimp only
  rcases w.keys with _ | ⟨_ | key, keys⟩
  · by_cases ht : timeout = 0
    · subst ht
      exact .inr ⟨_, rfl, rfl, _, Array.toList_push⟩
    · dsimp only
      rw [if_neg ht]
      exact .inl ⟨none, _, rfl, rfl, .of_push rfl trivial⟩
  · exact .inl ⟨none, _, rfl, rfl, .of_push rfl trivial⟩
  · exact .inl ⟨some key, _, rfl, rfl, .of_push rfl trivial⟩

theorem attended_dhcpServer : Attended (Contact names servers) (machine n).dhcpServer :=
  attended_query fun w => ⟨_, dhcpServer_run n w⟩

theorem attended_clientMac : Attended (Contact names servers) (machine n).clientMac :=
  attended_query fun w => ⟨w.mac, clientMac_run n w⟩

theorem attended_discoverPacket : Attended (Contact names servers) (machine n).toNetwork.discoverPacket :=
  attended_query fun w => ⟨if w.discover.isEmpty then .error .notFound else .ok w.discover, by cases n <;> rfl⟩

theorem attended_systemUuid : Attended (Contact names servers) (machine n).systemUuid :=
  attended_query fun w => ⟨w.uuid, systemUuid_run n w⟩

theorem attended_reserve (len : Nat) : Attended (Contact names servers) ((machine n).toNetwork.reserve len) := by
  rw [machine_reserve]
  exact attended_query fun w => ⟨w.reserves len, rfl⟩

theorem attended_setLogLimit (limit : Log.Limit) : Attended (Contact names servers) ((machine n).setLogLimit limit) :=
  attended_of_run fun w => ⟨(), _, setLogLimit_run n limit w, rfl, .of_eq rfl⟩

theorem attended_log (r : Log.Record) : Attended (Contact names servers) (keepLog r) := Beside.silent (.note r)

theorem attended_fileSize {server : Net.Ipv4} (hs : servers server) (name : String) :
    Attended (Contact names servers) (fileSize server name) := by
  refine attended_of_run fun w => ?_
  obtain ⟨events, sizeFailures, h, hn⟩ := fileSize_run server name w
  exact ⟨_, _, h, rfl, _, hn, fun e he => List.mem_singleton.mp he ▸ hs⟩

theorem attended_receiveFile {server : Net.Ipv4} (hs : servers server) (name : String) (len : Nat) :
    Attended (Contact names servers) (receiveFile server name len) := by
  refine attended_of_run fun w => ?_
  obtain ⟨events, reads, h, hn⟩ := receiveFile_run server name len w
  exact ⟨_, _, h, rfl, _, hn, fun e he => List.mem_singleton.mp he ▸ hs⟩

end Services

end Sim

namespace Boot

open Sim

variable {names : String → Prop} {servers : Net.Ipv4 → Prop} {n : Nat} {d : Bool}

/-! ## Talk -/

theorem contact_speaks : Speaks (fun _ x _ => Attended (Contact names servers) x) (machine n) d d := by
  refine Paired.speaks ⟨fun a => .pure Contact.ordered a, fun hx hf => .bind Contact.ordered hx hf, fun _ h => h⟩
    (fun r => ?_) attended_print attended_sleep
  rw [machine_toJournal]
  exact attended_log r

theorem attended_hostSay (pieces : List String) :
    Attended (Contact names servers) ((machine n).toConsole.say pieces) := (contact_speaks (d := false)).hostSay pieces

namespace Session

theorem attended_say (pieces : List String) : Attended (Contact names servers) (say ⟨machine n, d⟩ pieces) :=
  contact_speaks.say pieces

theorem attended_sayDebug (pieces : List String) :
    Attended (Contact names servers) (sayDebug ⟨machine n, d⟩ pieces) := contact_speaks.sayDebug pieces

theorem attended_debugDelay (seconds : Nat) :
    Attended (Contact names servers) (debugDelay ⟨machine n, d⟩ seconds) := contact_speaks.debugDelay seconds

end Session

/-! ## Waits -/

theorem attended_waitUntil (key : Key) (deadline reads : Nat) :
    Attended (Contact names servers) (waitUntil (machine n).toConsole key deadline reads) := by
  induction reads with
  | zero => exact .pure Contact.ordered _
  | succ reads ih =>
    refine .bind Contact.ordered attended_ticks fun now => ?_
    dsimp only
    split
    · exact .pure Contact.ordered _
    · refine .bind Contact.ordered (attended_readKey _) fun pressed => ?_
      split
      · exact .pure Contact.ordered _
      · exact ih

theorem attended_waitForKey (key : Key) (delay : UInt32) :
    Attended (Contact names servers) (waitForKey (machine n).toConsole key delay) := by
  refine .bind Contact.ordered attended_ticks fun _ => ?_
  exact .bind Contact.ordered attended_keysAhead fun _ => attended_waitUntil _ _ _

/-! ## All of it -/

/-- The services that a client uses are for the operator, or for a server that is asked. -/
theorem contact_attends : Attends (fun server _ => servers server)
    (fun _ x _ => Attended (Contact names servers) x) (machine n) d d where
  toSpeaks := contact_speaks
  clear := attended_clear
  cursor := attended_cursor
  setCursor := attended_setCursor
  setHighlight := attended_setHighlight
  readKey := attended_readKey
  sleep := attended_sleep
  keysAhead := attended_keysAhead
  waitForKey := attended_waitForKey
  clientMac := attended_clientMac
  discoverPacket := attended_discoverPacket
  systemUuid := attended_systemUuid
  reserve := attended_reserve
  fileSize hs := by
    show Attended _ ((machine n).toNetwork.fileSize _ _)
    rw [machine_fileSize]
    exact attended_fileSize hs _
  receiveFile len hs := by
    show Attended _ ((machine n).toNetwork.receiveFile _ _ len)
    rw [machine_receiveFile]
    exact attended_receiveFile hs _ len

theorem attended_askServer {address : Net.Ipv4} (hs : servers address) (identity : Identity) (policy : RetryPolicy) :
    Attended (Contact names servers) (askServer ⟨machine n, d⟩ identity policy address) :=
  contact_attends.askServer hs policy

theorem attended_report {server : Server} (hs : servers server.address) (settings : Settings)
    (selection : Menu.Selection) :
    Attended (Contact names servers) (report ⟨machine n, d⟩ settings server selection) :=
  contact_attends.report server (fun _ => hs) (Eq.refl settings.dontSetPathPrefix) selection

theorem PropertyList.attended_fetch {server : Net.Ipv4} (hs : servers server) :
    Attended (Contact names servers) (fetch (machine n).toNetwork server) :=
  (contact_attends (d := false)).configuration hs

theorem attended_identify : Attended (Contact names servers) (identify ⟨machine n, d⟩) :=
  contact_attends.identify

end Boot

end NetBoot
