/-
  NetBoot.Proofs.Boot.Outcome — what a whole boot comes to.

  A boot comes to a choice or fails (`Client.choose`), and then carries the choice out
  (`Client.start_eq`). Up to the choice it is aside from the machine; the choice runs a program if it is
  an entry to chainload, and nothing else does (`processEntry_settles`). So one image is started at most,
  a boot that comes back chainloaded ran its program well, every failure goes on to the local disk, and
  the machine is left as it was found (`Client.Ends`).
-/

import NetBoot.Proofs.Boot.Program
import NetBoot.Proofs.Boot.Selection

namespace NetBoot.Boot

open Sim

variable {n : Nat} {d : Bool} {w : World}

/-! ## The choice -/

/-- What a boot has chosen, and will carry out. -/
structure Choice where
  identity : Identity
  /-- The server that is told, and has the program. -/
  server : Net.Ipv4
  selection : Menu.Selection

namespace Client

section Choosing

variable {m : Type → Type} [Monad m]

/-- The choice that settings lead to. -/
def chooseWith (s : Session m) (settings : Settings) (dhcpServer : Net.Ipv4) : m (Except BootError Choice) := do
  s.sayDebug ["DHCP packet server IP: ", dhcpServer.text, "\n"]
  match ← identify s with
  | .error e => return .error e
  | .ok identity => do
    s.debugDelay 5
    match ← selectEntry s settings dhcpServer identity with
    | .error e => return .error e
    | .ok (menuServer, selection) =>
      return .ok ⟨identity, if settings.bootFromMenuServer then menuServer else dhcpServer, selection⟩

/-- A boot up to its choice. The client comes back with the settings that were read. -/
def choose (c : Client) (host : Host m) : m (Client × Except BootError Choice) := do
  if !(← host.pxeMode).isNetboot then return (c, .error .notNetBoot)
  else
    match ← host.dhcpServer with
    | .error e => do
      let _ ← refuse host "cannot get DHCP server address" (.network e) e.message
      return (c, .error (.network e))
    | .ok dhcpServer =>
      match ← PropertyList.fetch host.toNetwork dhcpServer with
      | .error e => do
        let _ ← refuse host "cannot read configuration" e e.message
        return (c, .error e)
      | .ok properties => do
        let settings := Settings.ofProperties properties
        let c := { c with settings, debug := settings.isDebug }
        host.setLogLimit (.ofDebug c.debug)
        return (c, ← chooseWith ⟨host, c.debug⟩ settings dhcpServer)

/-- What a client makes of its choice. -/
def carryOut (c : Client) (host : Host m) (traps : Cell m Image.Traps) (choice : Choice) :
    m (Except BootError Outcome) :=
  processEntry ⟨host, c.debug⟩ traps c.strategy c.settings choice.identity choice.server choice.selection

theorem proceed_eq [LawfulMonad m] (s : Session m) (traps : Cell m Image.Traps) (strategy : Strategy)
    (settings : Settings) (dhcpServer : Net.Ipv4) :
    proceed s traps strategy settings dhcpServer = (do
      match ← chooseWith s settings dhcpServer with
      | .error e => return .error e
      | .ok choice =>
        processEntry s traps strategy settings choice.identity choice.server choice.selection) := by
  unfold proceed chooseWith
  simp only [bind_assoc]
  refine congrArg (Bind.bind _) (funext fun _ => congrArg (Bind.bind _) (funext fun identified => ?_))
  cases identified with
  | error e => simp
  | ok identity =>
    simp only [bind_assoc]
    refine congrArg (Bind.bind _) (funext fun _ => congrArg (Bind.bind _) (funext fun offered => ?_))
    cases offered with
    | error e => simp
    | ok offer => simp

/-- A boot is its choice, carried out. -/
theorem start_eq [LawfulMonad m] (c : Client) (host : Host m) (traps : Cell m Image.Traps) :
    c.start host traps = (do
      match ← c.choose host with
      | (c, .error e) => return (c, .error e)
      | (c, .ok choice) => return (c, ← c.carryOut host traps choice)) := by
  have hrefuse (what : String) (e : BootError) (reason : String) :
      refuse host what e reason = (do let _ ← refuse host what e reason; return .error e) := by
    simp [refuse]
  unfold start choose
  simp only [bind_assoc]
  refine congrArg (Bind.bind _) (funext fun mode => ?_)
  by_cases hmode : mode.isNetboot = true
  · simp only [hmode, Bool.not_true, Bool.false_eq_true, if_false, bind_assoc]
    refine congrArg (Bind.bind _) (funext fun address => ?_)
    cases address with
    | error e =>
      dsimp only
      rw [hrefuse]
      simp
    | ok dhcpServer =>
      simp only [bind_assoc]
      refine congrArg (Bind.bind _) (funext fun fetched => ?_)
      cases fetched with
      | error e =>
        dsimp only
        rw [hrefuse]
        simp
      | ok properties =>
        simp only [bind_assoc, pure_bind, proceed_eq]
        refine congrArg (Bind.bind _) (funext fun _ => congrArg (Bind.bind _) (funext fun chosen => ?_))
        cases chosen with
        | error e => simp
        | ok choice => simp [carryOut]
  · simp [hmode]

end Choosing

end Client

/-! ## Up to the choice -/

namespace Client

variable {names : String → Prop} {servers : Net.Ipv4 → Prop}

theorem attended_refuse (what : String) (e : BootError) (reason : String) :
    Attended (Contact names servers) (refuse (machine n) what e reason) :=
  (contact_attends (d := false)).refuse what e reason

theorem attended_chooseWith (settings : Settings) (dhcpServer : Net.Ipv4) :
    Attended (Contact (fun _ => True) fun _ => True) (chooseWith ⟨machine n, d⟩ settings dhcpServer) := by
  refine .bind Contact.ordered (Session.attended_sayDebug _) fun _ => ?_
  refine .bind Contact.ordered attended_identify fun identified => ?_
  cases identified with
  | error e => exact .pure Contact.ordered _
  | ok identity =>
    refine .bind Contact.ordered (Session.attended_debugDelay 5) fun _ => ?_
    have hselect := (settings.inquiry ⟨machine n, d⟩ dhcpServer identity).attended_selectFrom rfl 0
      (settings.servers.take Config.maxServers)
    refine .bind Contact.ordered hselect fun offered => ?_
    cases offered with
    | error e => exact .pure Contact.ordered _
    | ok offer => exact .pure Contact.ordered _

theorem attended_choose (c : Client) :
    Attended (Contact (fun _ => True) fun _ => True) (c.choose (machine n)) := by
  unfold choose
  refine .bind Contact.ordered (attended_query fun w => ⟨_, pxeMode_run n w⟩) fun mode => ?_
  split
  · exact .pure Contact.ordered _
  · refine .bind Contact.ordered attended_dhcpServer fun address => ?_
    cases address with
    | error e => exact .bind Contact.ordered (attended_refuse _ _ _) fun _ => .pure Contact.ordered _
    | ok dhcpServer =>
      refine .bind Contact.ordered (PropertyList.attended_fetch trivial) fun fetched => ?_
      cases fetched with
      | error e => exact .bind Contact.ordered (attended_refuse _ _ _) fun _ => .pure Contact.ordered _
      | ok properties =>
        refine .bind Contact.ordered (attended_setLogLimit _) fun _ => ?_
        exact .bind Contact.ordered (attended_chooseWith _ _) fun _ => .pure Contact.ordered _

end Client

/-! ## Behind it -/

/-- What is carried out of an entry: a program has run, and well, only if the entry is one to chainload. -/
structure Carried (entry : Menu.Entry) (w : World) (r : Except BootError Outcome) (w' : World) : Prop where
  leaves : Leaves w w'
  chainloaded (exit : Exit) : r = .ok (.chainloaded exit) → entry.kind = .chainload ∧ exit.isSuccess = true

theorem settles_aside {α β : Type} {x : Sim α} {f : α → Sim β} {S : β → World → Prop}
    (hx : Attended (Contact (fun _ => True) fun _ => True) x)
    (hf : ∀ a v, Beside (·.isAside = true) w v → Settles (f a) S v) : Settles (x >>= f) S w :=
  hx.settles_bind fun a v h => hf a v h.aside

theorem perform_settles (hw : Plain w) (c : Chainloader) (server : Net.Ipv4) (entry : Menu.Entry) :
    Settles (perform ⟨machine n, d⟩ trapsCell c server entry) (Carried entry w) w := by
  unfold perform
  cases hkind : entry.kind
  case chainload =>
    refine settles_aside (Session.attended_say _) fun _ v hsaid => ?_
    obtain ⟨final, w', hr, hleaves, hsuccess⟩ :=
      c.leaves_run (n := n) (d := d) (hw.of_inner_eq hsaid.inner_eq) entry.command server
    refine .of_ok (bind_of_ok hr _) ⟨hleaves.around hsaid ((Beside.ordered _).refl w'), fun exit h => ?_⟩
    cases final with
    | error e => cases h
    | ok exit' =>
      cases h
      exact ⟨hkind, hsuccess exit rfl⟩
  all_goals
    refine settles_aside (Session.attended_say _) fun _ v hsaid => ?_
    exact .pure ⟨.of_beside hsaid, fun _ h => (nomatch h)⟩

theorem Carried.behind {entry : Menu.Entry} {v w' : World} {r : Except BootError Outcome} (h : Carried entry v r w')
    (hv : Beside (·.isAside = true) w v) : Carried entry w r w' :=
  ⟨h.leaves.around hv ((Beside.ordered _).refl w'), h.chainloaded⟩

theorem processEntry_settles (hw : Plain w) (strategy : Strategy) (settings : Settings) (identity : Identity)
    (address : Net.Ipv4) (selection : Menu.Selection) :
    Settles (processEntry ⟨machine n, d⟩ trapsCell strategy settings identity address selection)
      (Carried selection.entry w) w := by
  refine settles_aside (Session.attended_say _) fun _ v₁ h₁ => ?_
  refine settles_aside (attended_report trivial settings selection) fun _ v₂ h₂ => ?_
  refine settles_aside (Session.attended_debugDelay 5) fun _ v₃ h₃ => ?_
  have h : Beside (·.isAside = true) w v₃ := (Beside.ordered _).trans h₁ ((Beside.ordered _).trans h₂ h₃)
  exact (perform_settles (hw.of_inner_eq h.inner_eq) _ _ _).mono fun r w' hr => hr.behind h

/-! ## Whole boots -/

namespace Client

theorem start_settles (hw : Plain w) (c : Client) :
    Settles (c.start (machine n) trapsCell) (fun r w' => Leaves w w' ∧ ∀ exit, r.2 = .ok (.chainloaded exit) →
      exit.isSuccess = true ∧ ∃ choice v, c.choose (machine n) w = .ok (r.1, .ok choice) v ∧
        choice.selection.entry.kind = .chainload) w := by
  rw [start_eq]
  refine (c.attended_choose w).run.bind ?_
  rintro ⟨c', chosen⟩ v ⟨hchosen, hcontact⟩
  have haside := hcontact.aside
  cases chosen with
  | error e => exact .pure ⟨.of_beside haside, fun _ h => (nomatch h)⟩
  | ok choice =>
    have hcarried : Settles (c'.carryOut (machine n) trapsCell choice) (Carried choice.selection.entry v) v :=
      processEntry_settles (hw.of_inner_eq haside.inner_eq) _ _ _ _ _
    refine hcarried.bind fun r w' h => .pure ⟨(h.behind haside).leaves, fun exit hexit => ?_⟩
    obtain ⟨hkind, hsuccess⟩ := h.chainloaded exit hexit
    exact ⟨hsuccess, choice, v, hchosen, hkind⟩

/-- How a boot on a machine may end, with what it comes back with. -/
structure Ends (n : Nat) (w : World) (c : Client) (r : Client × Outcome) (w' : World) : Prop where
  /-- A program has run only if the boot chose an entry to chainload, and it ended with success. -/
  chainloaded (exit : Exit) : r.2 = .chainloaded exit → exit.status = .success ∧
    ∃ choice v, c.choose (machine n) w = .ok (r.1, .ok choice) v ∧ choice.selection.entry.kind = .chainload
  /-- Where its start fails, the local disk is next. -/
  failed (c' : Client) (e : BootError) (v : World) :
    c.start (machine n) trapsCell w = .ok (c', .error e) v → r.2 = .localBoot
  leaves : Leaves w w'

theorem Ends.of_localBoot {c c' : Client} {w' : World} (h : Leaves w w') : Ends n w c (c', .localBoot) w' where
  chainloaded _ h := nomatch h
  failed _ _ _ _ := rfl
  leaves := h

/-- Whatever the machine is scripted to do, a boot ends like that, unless it waits for a key that never
    comes: with one image started at most, and the machine left as it was found. -/
theorem run_settles (hw : Plain w) (c : Client) : Settles (c.run (machine n) trapsCell) (Ends n w c) w := by
  refine (c.start_settles hw).run.bind ?_
  rintro ⟨c', r⟩ v ⟨hstart, hleaves, hchainloaded⟩
  cases r with
  | ok outcome =>
    refine .pure ⟨fun exit h => ?_, fun c'' e v' h => (nomatch hstart.symm.trans h), hleaves⟩
    obtain ⟨hsuccess, hchoice⟩ := hchainloaded exit (congrArg Except.ok h)
    exact ⟨Status.isSuccess_iff.mp hsuccess, hchoice⟩
  | error e =>
    have hlocal {w' : World} (h : Beside (·.isAside = true) v w') : Ends n w c (c', .localBoot) w' :=
      .of_localBoot (hleaves.around ((Beside.ordered _).refl w) h)
    dsimp only
    unfold Journal.error
    rw [machine_toJournal]
    refine settles_aside (attended_log _) fun _ v₁ h₁ => ?_
    refine settles_aside (attended_hostSay _) fun _ v₂ h₂ => ?_
    have h : Beside (·.isAside = true) v v₂ := (Beside.ordered _).trans h₁ h₂
    split
    · refine settles_aside (attended_readKey signatureWait) fun _ v₃ h₃ => ?_
      exact .pure (hlocal ((Beside.ordered _).trans h h₃))
    · refine settles_aside (Session.attended_debugDelay 10) fun _ v₃ h₃ => ?_
      exact .pure (hlocal ((Beside.ordered _).trans h h₃))

/-- A server with a menu of one entry, its default, to chainload a program that it has. -/
def programServer : World where
  discover := Array.replicate Net.Dhcp.optionsOffset 0 ++ #[Net.Dhcp.architectureCode, 2, 0, 7, Net.Dhcp.endCode]
  files := [((⟨10, 0, 0, 1⟩, "/bbl/001a2b3c4d5e/00000000-0000-0000-0000-000000000000/menu#7"),
      (Menu.Record.encode { kind := .chainload, flags := 1, text := "install", command := "boot.efi" }).toArray),
    ((⟨10, 0, 0, 1⟩, "/boot.efi"), #[0x4d])]

theorem programServer_plain : Plain programServer := ⟨fun _ _ h => (nomatch h), by decide, fun _ h => (nomatch h)⟩

/-- The firmware runs the program, once. -/
theorem programServer_chainloads : Plain programServer ∧ ∃ c exit w',
    run { strategy := .firmware } (machine 0) trapsCell programServer = .ok (c, .chainloaded exit) w' ∧
      exit.status = .success ∧ Leaves programServer w' ∧ w'.events.toList.countP Event.isStart = 1 := by
  refine ⟨programServer_plain, ?_⟩
  have hends : endsWith (run { strategy := .firmware } (machine 0) trapsCell) programServer
      (fun r w' => r.2 == .chainloaded .success && w'.events.toList.countP Event.isStart == 1) = true := by
    decide +kernel
  obtain ⟨⟨c, outcome⟩, w', hr, h⟩ := exists_of_endsWith hends
  simp only [Bool.and_eq_true, beq_iff_eq] at h
  obtain ⟨rfl, hcount⟩ := h
  have hrun := (run_settles (n := 0) programServer_plain { strategy := .firmware }).of_settles hr
  exact ⟨c, .success, w', hr, (hrun.chainloaded .success rfl).1, hrun.leaves, hcount⟩

end Client

end NetBoot.Boot
