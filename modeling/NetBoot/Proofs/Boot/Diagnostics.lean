/-
  NetBoot.Proofs.Boot.Diagnostics — showing diagnostics does not change what is booted.

  Behind the reading of the configuration, two boots whose settings differ in `debug` alone are alike: they
  make the same requests, read the same keys for the same times, and come to the same outcome
  (`agree_proceed`). The configuration file is where the settings differ, so it is the one file that two
  scripts do not share, and its reading comes first (`World.configuring`). Whole boots are put together
  from that in `Client.debug_changes_nothing_booted`. The waits of a boot are added up on the way, since the
  time until the end of the clock has to be longer (`bootTime`).
-/

import Mathlib.Algebra.Group.Nat.Defs
import NetBoot.Proofs.Boot.Effects
import NetBoot.Proofs.Boot.Twins

namespace NetBoot

open Boot

/-! ## Parts of a boot -/

section Parts

variable {m : Type → Type} [Monad m]

/-- What a boot comes to, with what is shown of a failure. -/
def Boot.Client.showOutcome (s : Session m) : Except BootError Outcome → m Outcome
  | .ok outcome => return outcome
  | .error e => do
    s.host.toFirmware.error "netchain_pxe::start" s!"network boot failed: {e.message}"
    s.host.say ["error: ", e.message, "\n"]
    if e.isSignatureError then let _ ← s.host.readKey Client.signatureWait
    else s.debugDelay 10
    return .localBoot

/-- What a boot comes to, without the client. -/
def Boot.Client.outcome (c : Client) (host : Host m) (traps : Cell m Image.Traps) : m Outcome := do
  return (← c.run host traps).2

theorem Boot.Client.outcome_eq [LawfulMonad m] (c : Client) (host : Host m) (traps : Cell m Image.Traps) :
    c.outcome host traps = (do
      let r ← c.start host traps
      showOutcome ⟨host, r.1.debug⟩ r.2) := by
  unfold Client.outcome Client.run
  rw [bind_assoc]
  refine congrArg (Bind.bind _) (funext fun (c, r) => ?_)
  cases r with
  | ok outcome => exact pure_bind _ _
  | error e =>
    simp only [bind_assoc, showOutcome]
    refine congrArg (Bind.bind _) (funext fun _ => congrArg (Bind.bind _) (funext fun _ => ?_))
    split
    · simp
    · simp

namespace Attends

variable {asks : Net.Ipv4 → String → Prop} {R : {α : Type} → Nat → m α → m α → Prop} {h : Host m} {d d' : Bool}
  (hR : Attends asks @R h d d')

include hR

theorem showOutcome (r : Except BootError Outcome) :
    R 30000 (Client.showOutcome ⟨h, d⟩ r) (Client.showOutcome ⟨h, d'⟩ r) := by
  cases r with
  | ok outcome => exact hR.done _
  | error e =>
    refine hR.seq (hR.log _) fun _ => hR.seq (hR.hostSay _) fun _ => ?_
    dsimp only
    split
    · exact hR.spend (hR.readKey Client.signatureWait) fun _ => hR.pure _
    · exact hR.pay (t := 0) _ (hR.debugDelay 10) (by decide) fun _ => hR.pure _

/-- The time that the choice may take. -/
def choiceTime (settings : Settings) : Nat :=
  5000 + Config.maxServers * (10000 + turnTime { retries := settings.menuRetries })

theorem chooseWith [LawfulMonad m] (hresolve : ∀ name, R 0 (h.resolveHost name) (h.resolveHost name))
    (hs : ∀ mac uuid architecture address, asks address (requestName mac uuid (.menu architecture)))
    {settings settings' : Settings} (hsame : { settings with debug := 0 } = { settings' with debug := 0 })
    (dhcpServer : Net.Ipv4) :
    R (choiceTime settings) (Client.chooseWith ⟨h, d⟩ settings dhcpServer)
      (Client.chooseWith ⟨h, d'⟩ settings' dhcpServer) := by
  obtain ⟨_, hretries, hboot, -, -, hservers⟩ := Settings.mk.inj hsame
  refine hR.seq (hR.sayDebug _) fun _ => hR.seq hR.identify fun r => ?_
  cases r with
  | error e => exact hR.done _
  | ok identity =>
    unfold selectEntry choiceTime
    rw [← hretries, ← hservers, ← hboot]
    refine hR.bind (hR.debugDelay 5) fun _ => hR.spend ?_ fun r => ?_
    · have hcount : (settings.servers.take Config.maxServers).length ≤ Config.maxServers :=
        List.length_take_le _ _
      exact hR.mono (Nat.mul_le_mul_right _ hcount) (hR.selectFrom hresolve (hs _ _ _) _ _ _ _)
    · cases r with
      | error e => exact hR.pure _
      | ok offer => exact hR.pure _

end Attends

end Parts

/-! ## The reading of the configuration -/

namespace Sim

variable {w v : World}

/-- The size queries that are still to fail, with one less of this name. -/
def World.failuresLeft (w : World) (name : String) : Table String Nat :=
  match w.sizeFailures.find? name with
  | some (failures + 1) => w.sizeFailures.insert name failures
  | _ => w.sizeFailures

theorem fileSize_eq (server : Net.Ipv4) (name : String) (w : World) :
    fileSize server name w = .ok (w.sizeOf server name) { w with
      sizeFailures := w.failuresLeft name
      events := w.events.push (.fileSize server name (w.sizeOf server name)) } := by
  have htake : takeFailure name w = .ok (w.sizeFails name) { w with sizeFailures := w.failuresLeft name } := by
    unfold takeFailure World.sizeFails World.failuresLeft
    rw [get_bind]
    rcases w.sizeFailures.find? name with _ | _ | failures <;> rfl
  unfold fileSize trueSize World.sizeOf
  rw [bind_assoc, bind_of_ok htake]
  cases w.sizeFails name with
  | true => rfl
  | false =>
    rw [if_neg Bool.false_ne_true, if_neg Bool.false_ne_true, bind_assoc, get_bind]
    dsimp only
    cases w.files.lookup (server, name) <;> rfl

/-- The machine with other files in the network. -/
def World.serving (w : World) (files : List ((Net.Ipv4 × String) × Bytes)) : World := { w with files }

/-- What the configuration of a server is. -/
def World.configured (w : World) (server : Net.Ipv4) : Except BootError PropertyList :=
  match w.sizeOf server Config.fileName with
  | .error _ => .ok {}
  | .ok size =>
    if w.reserves size.toNat then
      match w.fileIn server Config.fileName size.toNat with
      | (.error _, _) => .error .configRead
      | (.ok count, buffer) =>
        .ok (.parse (Text.decodeLossy (buffer.resize (min count size.toNat)).toList))
    else .error .configRead

/-- What is seen of reading it. -/
def World.configuring (w : World) (server : Net.Ipv4) : List Event :=
  .fileSize server Config.fileName (w.sizeOf server Config.fileName) ::
    match w.sizeOf server Config.fileName with
    | .error _ => []
    | .ok size =>
      if w.reserves size.toNat then
        [.receiveFile server Config.fileName size.toNat (w.fileIn server Config.fileName size.toNat).1]
      else []

/-- Files of the same size are seen to be read in the same way. -/
theorem configuring_eq {server : Net.Ipv4} (hs : v.silenced = w.silenced)
    (hsize : (v.files.lookup (server, Config.fileName)).map (·.size) =
      (w.files.lookup (server, Config.fileName)).map (·.size)) : v.configuring server = w.configuring server := by
  have hfails : v.sizeFails Config.fileName = w.sizeFails Config.fileName :=
    eq_of_silenced_eq (a := fun w => w.sizeFails Config.fileName) (fun _ => rfl) hs
  have hsizes : v.sizes = w.sizes := eq_of_silenced_eq (a := fun w => w.sizes) (fun _ => rfl) hs
  have hfaults : v.readFaults = w.readFaults := eq_of_silenced_eq (a := fun w => w.readFaults) (fun _ => rfl) hs
  have hroom : v.reserves = w.reserves := eq_of_silenced_eq (a := fun w => w.reserves) (fun _ => rfl) hs
  have hfile : (v.files.lookup (server, Config.fileName) = none ∧ w.files.lookup (server, Config.fileName) = none) ∨
      ∃ data data', v.files.lookup (server, Config.fileName) = some data ∧
        w.files.lookup (server, Config.fileName) = some data' ∧ data.size = data'.size := by
    cases hv : v.files.lookup (server, Config.fileName) with
    | none =>
      rw [hv, Option.map_none, eq_comm, Option.map_eq_none_iff] at hsize
      exact .inl ⟨rfl, hsize⟩
    | some data =>
      rw [hv, Option.map_some, eq_comm, Option.map_eq_some_iff] at hsize
      obtain ⟨data', hw, hd⟩ := hsize
      exact .inr ⟨data, data', rfl, hw, hd.symm⟩
  have hsizeOf : v.sizeOf server Config.fileName = w.sizeOf server Config.fileName := by
    unfold World.sizeOf
    rcases hfile with ⟨hv, hw⟩ | ⟨data, data', hv, hw, hd⟩
    · rw [hfails, hv, hw]
    · rw [hfails, hsizes, hv, hw]
      dsimp only
      rw [hd]
  have hfileIn (len : Nat) : (v.fileIn server Config.fileName len).1 = (w.fileIn server Config.fileName len).1 := by
    unfold World.fileIn
    rw [hfaults]
    cases w.readFaults.find? Config.fileName with
    | some e => rfl
    | none =>
      rcases hfile with ⟨hv, hw⟩ | ⟨data, data', hv, hw, hd⟩
      · rw [hv, hw]
      · rw [hv, hw]
        dsimp only
        rw [hd]
        split <;> rfl
  unfold World.configuring
  simp only [hsizeOf, hfileIn, hroom]

/-- All of it is seen. -/
theorem filter_configuring (w : World) (server : Net.Ipv4) :
    (w.configuring server).filter (fun e => !e.isTalk) = w.configuring server := by
  refine List.filter_eq_self.mpr fun e he => ?_
  unfold World.configuring at he
  rcases List.mem_cons.mp he with rfl | he
  · rfl
  · split at he
    · cases he
    · split at he
      · rw [List.mem_singleton.mp he]
        rfl
      · cases he

end Sim

open Sim

variable {n : Nat} {d : Bool}

/-- The configuration is what it is, and its reading changes nothing else that a boot goes by. -/
theorem Boot.PropertyList.fetch_run (server : Net.Ipv4) (w : World) :
    ∃ events reads, events.toList = w.events.toList ++ w.configuring server ∧
      ∃ log, PropertyList.fetch (machine n).toNetwork server w = .ok (w.configured server) { w with
        events, reads, log, sizeFailures := w.failuresLeft Config.fileName } := by
  have hnotes (rs : List Log.Record) : Silent (Journal.logAll ⟨keepLog⟩ rs) () := .notes rs
  have ends {α : Type} {x : Sim α} {a : α} {v : World} (hx : Silent x a) : ∃ log, x v = .ok a { v with log } := hx v
  unfold PropertyList.fetch Transfer.read Journal.debug Journal.error World.configured World.configuring
  rw [machine_networkJournal, machine_fileSize, machine_reserve, machine_receiveFile,
    bind_of_ok (fileSize_eq server Config.fileName w)]
  cases w.sizeOf server Config.fileName with
  | error e =>
    refine ⟨_, w.reads, Array.toList_push, ends ?_⟩
    exact .bind (.note _) (.pure _)
  | ok size =>
    dsimp only
    rw [bind_assoc, bind_assoc, get_bind]
    show ∃ events reads, _ ∧ ∃ log, ((if w.reserves size.toNat then _ else _ : Sim _) >>= _) _ = _
    by_cases hroom : w.reserves size.toNat = true
    · rw [if_pos hroom, if_pos hroom, if_pos hroom, bind_assoc]
      obtain ⟨events, reads, hr, hn⟩ := receiveFile_run server Config.fileName size.toNat { w with
        sizeFailures := w.failuresLeft Config.fileName
        events := w.events.push (.fileSize server Config.fileName (.ok size)) }
      have hfile : ({ w with
          sizeFailures := w.failuresLeft Config.fileName
          events := w.events.push (.fileSize server Config.fileName (.ok size)) } : World).fileIn server
            Config.fileName size.toNat = w.fileIn server Config.fileName size.toNat := rfl
      rw [hfile] at hr hn
      have hn : events.toList = w.events.toList ++ [.fileSize server Config.fileName (.ok size),
          .receiveFile server Config.fileName size.toNat (w.fileIn server Config.fileName size.toNat).1] := by
        rw [Noted, Array.toList_push, List.append_assoc] at hn
        exact hn
      rw [bind_of_ok hr]
      generalize w.fileIn server Config.fileName size.toNat = answer at hn ⊢
      obtain ⟨e | count, buffer⟩ := answer
      · refine ⟨events, reads, hn, ends ?_⟩
        exact .bind (.bind (.note _) (.pure _)) (.pure _)
      · refine ⟨events, reads, hn, ends ?_⟩
        exact .bind (.bind (.note _) (.pure _)) (.bind (hnotes _) (.bind (hnotes _) (.pure _)))
    · rw [if_neg hroom, if_neg hroom, if_neg hroom]
      exact ⟨_, w.reads, Array.toList_push, w.log, rfl⟩

namespace Boot

/-! ## Behind the configuration -/

/-- What a boot behind its configuration may take, in milliseconds. -/
def bootTime (settings : Settings) : Nat := Attends.choiceTime settings + 15000

theorem menuRetries_ofProperties_lt (properties : PropertyList) :
    (Settings.ofProperties properties).menuRetries < UInt32.size := by
  show ((properties.get? "menuretries").map fun v => leadingNumber v.toList).getD 0 < UInt32.size
  cases properties.get? "menuretries" with
  | none => decide
  | some v => exact Nat.lt_of_le_of_lt (Nat.min_le_right _ _) (by decide)

theorem bootTime_le {settings : Settings} (hretries : settings.menuRetries < UInt32.size) :
    bootTime settings + 30000 ≤ 2 ^ 50 := by
  have hwait : Attends.longestWait 20 = 20000 := by decide
  have hsize : UInt32.size = 2 ^ 32 := rfl
  show 5000 + 8 * (10000 + (settings.menuRetries * Attends.longestWait 20 + 5000 + UInt32.size * 1000)) + 15000 +
    30000 ≤ 2 ^ 50
  rw [hwait]
  omega

variable {k : Terms} {s : Nat} {w v : World} {d' : Bool}

/-- With settings that differ in `debug` alone, boots behind their configurations are alike, whether or not they
    show diagnostics. -/
theorem agree_proceed (hk : ∀ address mac uuid action, k.asks address (requestName mac uuid action))
    {settings settings' : Settings} (hsame : { settings with debug := 0 } = { settings' with debug := 0 })
    (strategy : Strategy) (dhcpServer : Net.Ipv4)
    (hprogram : ∀ choice u, Client.chooseWith ⟨machine n, d⟩ settings dhcpServer w = .ok (.ok choice) u →
      choice.selection.entry.kind = .chainload → k.asks choice.server (bootFilePath choice.selection.entry.command))
    (h : Twin k (s + bootTime settings) w v) :
    Agree k s (Client.proceed ⟨machine n, d⟩ trapsCell strategy settings dhcpServer w)
      (Client.proceed ⟨machine n, d'⟩ trapsCell strategy settings' dhcpServer v) := by
  have hA := alike_attends (k := k) d d' (n := n)
  have hsum : s + bootTime settings = (s + 15000) + Attends.choiceTime settings := by
    unfold bootTime
    omega
  rw [Client.proceed_eq, Client.proceed_eq]
  rw [hsum] at h
  refine Agree.bind (t := 15000) ?_ fun r w' v' hr _ h' => ?_
  · exact hA.chooseWith alike_resolveHost (fun _ _ _ _ => hk _ _ _ _) hsame dhcpServer _ w v h
  · cases r with
    | error e => exact .ok _ (h'.mono (Nat.le_add_right _ _))
    | ok choice =>
      exact hA.processEntry ((alike_hosted k).machine n) (.query (pxeMode_run n) fun _ => rfl)
        (fun file server => by rw [machine_redirectBoot]; exact alike_redirectBoot file server) hsame strategy
        choice.selection (fun _ => hk _ _ _ _) (hprogram choice w' hr) s w' v' h'

/-! ## Whole boots -/

namespace Client

variable {c : Client} {dhcpServer : Net.Ipv4}

theorem outcome_of_notNetBoot (h : w.pxeMode.isNetboot = false) :
    c.outcome (machine n) trapsCell w = showOutcome ⟨machine n, c.debug⟩ (.error .notNetBoot) w := by
  rw [outcome_eq]
  unfold start
  rw [bind_assoc, bind_of_ok (pxeMode_run n w), h]
  rfl

theorem outcome_of_noServer (h : w.pxeMode.isNetboot = true) (hserver : w.dhcpServer = none) :
    c.outcome (machine n) trapsCell w = (do
      showOutcome ⟨machine n, c.debug⟩ (← refuse (machine n) "cannot get DHCP server address" (.network .notFound)
        ServiceError.notFound.message)) w := by
  rw [outcome_eq]
  unfold start
  rw [bind_assoc, bind_of_ok (pxeMode_run n w), h]
  simp only [Bool.not_true, Bool.false_eq_true, if_false, bind_assoc]
  rw [bind_of_ok (dhcpServer_run n w), hserver]
  simp only [demand, bind_assoc, pure_bind]

section Configuration

variable {r : Except BootError PropertyList} {w₁ : World} (h : w.pxeMode.isNetboot = true)
  (hserver : w.dhcpServer = some dhcpServer)
  (hr : PropertyList.fetch (machine n).toNetwork dhcpServer w = .ok r w₁)

include h hserver hr

theorem outcome_of_unread {e : BootError} (he : r = .error e) :
    c.outcome (machine n) trapsCell w = (do
      showOutcome ⟨machine n, c.debug⟩ (← refuse (machine n) "cannot read configuration" e e.message)) w₁ := by
  subst he
  rw [outcome_eq]
  unfold start
  rw [bind_assoc, bind_of_ok (pxeMode_run n w), h]
  simp only [Bool.not_true, Bool.false_eq_true, if_false, bind_assoc]
  rw [bind_of_ok (dhcpServer_run n w), hserver]
  simp only [demand, bind_assoc]
  rw [bind_of_ok hr]
  simp only [bind_assoc, pure_bind]

theorem outcome_of_read {properties : PropertyList} (hp : r = .ok properties) :
    c.outcome (machine n) trapsCell w = (do
      showOutcome ⟨machine n, (Settings.ofProperties properties).isDebug⟩
        (← proceed ⟨machine n, (Settings.ofProperties properties).isDebug⟩ trapsCell c.strategy
          (.ofProperties properties) dhcpServer))
      { w₁ with logLimit := .ofDebug (Settings.ofProperties properties).isDebug } := by
  subst hp
  rw [outcome_eq]
  unfold start
  rw [bind_assoc, bind_of_ok (pxeMode_run n w), h]
  simp only [Bool.not_true, Bool.false_eq_true, if_false, bind_assoc]
  rw [bind_of_ok (dhcpServer_run n w), hserver]
  simp only [demand, bind_assoc]
  rw [bind_of_ok hr]
  simp only [bind_assoc, pure_bind]
  rw [bind_of_ok (setLogLimit_run n _ _)]

/-- The choice of a boot is the one that its settings lead to. -/
theorem choose_of_read {properties : PropertyList} (hp : r = .ok properties) {choice : Except BootError Choice}
    {u : World}
    (hchoice : chooseWith ⟨machine n, (Settings.ofProperties properties).isDebug⟩ (.ofProperties properties) dhcpServer
      { w₁ with logLimit := .ofDebug (Settings.ofProperties properties).isDebug } = .ok choice u) :
    c.choose (machine n) w = .ok ({ c with
      settings := .ofProperties properties
      debug := (Settings.ofProperties properties).isDebug }, choice) u := by
  subst hp
  unfold choose
  rw [bind_of_ok (pxeMode_run n w), h]
  simp only [Bool.not_true, Bool.false_eq_true, if_false]
  rw [bind_of_ok (dhcpServer_run n w), hserver]
  simp only [demand]
  rw [bind_of_ok hr]
  dsimp only
  rw [bind_of_ok (setLogLimit_run n _ _), bind_of_ok hchoice]
  rfl

end Configuration

/-- Two readings of a configuration come to the same settings but for `debug`, or fail alike. -/
def SameButDebug : Except BootError PropertyList → Except BootError PropertyList → Prop
  | .ok l, .ok l' => { Settings.ofProperties l with debug := 0 } = { Settings.ofProperties l' with debug := 0 }
  | .error e, .error e' => e = e'
  | _, _ => False

instance : DecidableRel SameButDebug
  | .ok l, .ok l' =>
    inferInstanceAs
      (Decidable ({ Settings.ofProperties l with debug := 0 } = { Settings.ofProperties l' with debug := 0 }))
  | .error e, .error e' => inferInstanceAs (Decidable (e = e'))
  | .ok _, .error _ => .isFalse id
  | .error _, .ok _ => .isFalse id

/-- What is seen of the reading of the configuration, if it comes to that. -/
def readings (w : World) : List Event :=
  if w.pxeMode.isNetboot then
    match w.dhcpServer with
    | some dhcpServer => w.configuring dhcpServer
    | none => []
  else []

/-- The files that two scripts share: all but the configuration. -/
def Shared (w : World) (server : Net.Ipv4) (name : String) : Prop :=
  ¬ (w.dhcpServer = some server ∧ name = Config.fileName)

section Scripts

variable {files : List ((Net.Ipv4 × String) × Bytes)} (hclock : w.clock.toNat < 2 ^ 63)
  (hfiles : ∀ server name, Shared w server name → files.lookup (server, name) = w.files.lookup (server, name))

include hclock hfiles

/-- Worlds that are still as two such scripts have them, but for what has been seen. -/
theorem twin_of_files {front front' : List Event} {w₁ v₁ : World} (hs : v₁.silenced = w₁.silenced)
    (hw : w₁.files = w.files ∧ w₁.clock = w.clock ∧ w₁.seen = w.seen ++ front)
    (hv : v₁.files = files ∧ v₁.clock = w.clock ∧ v₁.seen = (w.serving files).seen ++ front') :
    Twin ⟨Shared w, w.seen ++ front, (w.serving files).seen ++ front'⟩ (2 ^ 50) w₁ v₁ := by
  have htime : w.clock.toNat + 2 ^ 50 < UInt64.size := by
    have : UInt64.size = 2 ^ 64 := rfl
    omega
  refine ⟨⟨hs, fun {server name} ha => ?_, ?_, ?_⟩, [], ?_, ?_⟩
  · rw [hv.1, hw.1, hfiles server name ha]
  · rw [hw.2.1]
    exact htime
  · rw [hv.2.1]
    exact htime
  · rw [hw.2.2, List.append_nil]
  · rw [hv.2.2, List.append_nil]

omit hclock hfiles in
/-- An early end, and what is shown of it. -/
theorem alike_refused (k : Terms) (d d' : Bool) (what : String) (e : BootError) (reason : String) :
    Alike k 35000
      (refuse (machine n) what e reason >>= fun r : Except BootError Outcome => showOutcome ⟨machine n, d⟩ r)
      (refuse (machine n) what e reason >>= fun r : Except BootError Outcome => showOutcome ⟨machine n, d'⟩ r) :=
  (Alike.paired k).bind ((alike_attends d d').refuse what e reason) (alike_attends d d').showOutcome

section Programs

variable {c c' : Client} (hstrategy : c'.strategy = c.strategy)
  (hprogram : ∀ c₁ choice u, c.choose (machine n) w = .ok (c₁, .ok choice) u →
    choice.selection.entry.kind = .chainload → Shared w choice.server (bootFilePath choice.selection.entry.command))

include hstrategy hprogram

/-- Once the configuration has been read, it is not asked for again. -/
theorem outcome_sameRuns_of_server (hnetboot : w.pxeMode.isNetboot = true) (hserver : w.dhcpServer = some dhcpServer)
    (hsame : SameButDebug (w.configured dhcpServer) ((w.serving files).configured dhcpServer)) :
    SameRuns (w.configuring dhcpServer) ((w.serving files).configuring dhcpServer)
      (c.outcome (machine n) trapsCell) (c'.outcome (machine n) trapsCell) w (w.serving files) := by
  have hnetboot' : (w.serving files).pxeMode.isNetboot = true := hnetboot
  have hserver' : (w.serving files).dhcpServer = some dhcpServer := hserver
  obtain ⟨events, reads, hevents, log, hr⟩ := PropertyList.fetch_run (n := n) dhcpServer w
  obtain ⟨events', reads', hevents', log', hr'⟩ := PropertyList.fetch_run (n := n) dhcpServer (w.serving files)
  have hseen {u : World} {es : List Event} (he : es = u.events.toList ++ u.configuring dhcpServer) :
      es.filter (fun e => !e.isTalk) = u.seen ++ u.configuring dhcpServer := by
    rw [he, List.filter_append, filter_configuring, World.seen]
  have hread (limit limit' : Log.Limit) : Twin
      ⟨Shared w, w.seen ++ w.configuring dhcpServer,
        (w.serving files).seen ++ (w.serving files).configuring dhcpServer⟩ (2 ^ 50)
      { w with events, reads, log, sizeFailures := w.failuresLeft Config.fileName, logLimit := limit }
      { w.serving files with
        events := events', reads := reads', log := log', logLimit := limit'
        sizeFailures := (w.serving files).failuresLeft Config.fileName } :=
    twin_of_files hclock hfiles rfl ⟨rfl, rfl, hseen hevents⟩ ⟨rfl, rfl, hseen hevents'⟩
  cases hp : w.configured dhcpServer with
  | error e =>
    cases hp' : (w.serving files).configured dhcpServer with
    | ok properties =>
      rw [hp, hp'] at hsame
      exact hsame.elim
    | error e' =>
      rw [hp, hp'] at hsame
      cases hsame
      refine Agree.sameRuns (Shared w) (t := 0) (outcome_of_unread hnetboot hserver hr hp)
        (outcome_of_unread hnetboot' hserver' hr' hp') ?_
      exact alike_refused _ _ _ _ _ _ 0 _ _ ((hread _ _).mono (by decide))
  | ok properties =>
    cases hp' : (w.serving files).configured dhcpServer with
    | error e =>
      rw [hp, hp'] at hsame
      exact hsame.elim
    | ok properties' =>
      rw [hp, hp'] at hsame
      refine Agree.sameRuns (Shared w) (t := 0) (outcome_of_read hnetboot hserver hr hp)
        (outcome_of_read hnetboot' hserver' hr' hp') ?_
      rw [hstrategy]
      refine Agree.bind (t := 30000) ?_ fun r w₂ v₂ _ _ h₂ => ?_
      · refine agree_proceed ?_ hsame c.strategy dhcpServer ?_ ((hread _ _).mono ?_)
        · exact fun _ mac uuid action h => requestName_ne_fileName mac uuid action h.2
        · exact fun choice u hchoice => hprogram _ choice u (choose_of_read hnetboot hserver hr hp hchoice)
        · rw [Nat.zero_add, Nat.add_comm]
          exact bootTime_le (menuRetries_ofProperties_lt properties)
      · exact (alike_attends _ _).showOutcome r 0 _ _ h₂

/-- A boot from two scripts that share all files but the configuration. -/
theorem outcome_sameRuns (hsettings : ∀ server, w.dhcpServer = some server →
      SameButDebug (w.configured server) ((w.serving files).configured server)) :
    SameRuns (readings w) (readings (w.serving files)) (c.outcome (machine n) trapsCell)
      (c'.outcome (machine n) trapsCell) w (w.serving files) := by
  have hnetboot' : (w.serving files).pxeMode.isNetboot = w.pxeMode.isNetboot := rfl
  have hserver' : (w.serving files).dhcpServer = w.dhcpServer := rfl
  have hstart : Twin ⟨Shared w, w.seen ++ [], (w.serving files).seen ++ []⟩ (2 ^ 50) w (w.serving files) :=
    twin_of_files hclock hfiles rfl ⟨rfl, rfl, (List.append_nil _).symm⟩ ⟨rfl, rfl, (List.append_nil _).symm⟩
  unfold readings
  rw [hnetboot', hserver']
  rcases Bool.eq_false_or_eq_true w.pxeMode.isNetboot with hnetboot | hoff
  · rw [if_pos hnetboot, if_pos hnetboot]
    cases hserver : w.dhcpServer with
    | none =>
      refine Agree.sameRuns (Shared w) (t := 0) (outcome_of_noServer hnetboot hserver)
        (outcome_of_noServer (hnetboot'.trans hnetboot) (hserver'.trans hserver)) ?_
      exact alike_refused _ _ _ _ _ _ 0 _ _ (hstart.mono (by decide))
    | some dhcpServer =>
      exact outcome_sameRuns_of_server hclock hfiles hstrategy hprogram hnetboot hserver (hsettings _ hserver)
  · simp only [hoff, Bool.false_eq_true, if_false]
    refine Agree.sameRuns (Shared w) (t := 0) (outcome_of_notNetBoot hoff)
      (outcome_of_notNetBoot (hnetboot'.trans hoff)) ?_
    exact (alike_attends _ _).showOutcome _ 0 _ _ (hstart.mono (by decide))

end Programs

end Scripts

/-- Diagnostics change nothing of what is booted. Behind the configuration, two boots whose settings differ in
    `debug` alone end alike and are seen to do the same, what is said and slept aside; so do whole boots from two
    scripts whose configurations differ in that alone, but for the reading of the configuration itself, which is
    seen to be the same if the configurations are of the same size. The clock may stand at anything that leaves
    room for the waits of a boot; that of a script stands at 0. -/
theorem debug_changes_nothing_booted (w : World) (hclock : w.clock.toNat < 2 ^ 63) :
    (∀ (strategy : Strategy) (settings settings' : Settings) (dhcpServer : Net.Ipv4),
      settings.menuRetries < UInt32.size → { settings with debug := 0 } = { settings' with debug := 0 } →
      SameRuns [] [] (proceed ⟨machine n, settings.isDebug⟩ trapsCell strategy settings dhcpServer)
        (proceed ⟨machine n, settings'.isDebug⟩ trapsCell strategy settings' dhcpServer) w w) ∧
    ∀ (files : List ((Net.Ipv4 × String) × Bytes)) (c c' : Client), c'.strategy = c.strategy →
      (∀ server name, Shared w server name → files.lookup (server, name) = w.files.lookup (server, name)) →
      (∀ server, w.dhcpServer = some server →
        SameButDebug (w.configured server) ((w.serving files).configured server)) →
      (∀ c₁ choice u, c.choose (machine n) w = .ok (c₁, .ok choice) u → choice.selection.entry.kind = .chainload →
        Shared w choice.server (bootFilePath choice.selection.entry.command)) →
      SameRuns (readings w) (readings (w.serving files)) (c.outcome (machine n) trapsCell)
        (c'.outcome (machine n) trapsCell) w (w.serving files) ∧
      ((∀ server, w.dhcpServer = some server → (files.lookup (server, Config.fileName)).map (·.size) =
          (w.files.lookup (server, Config.fileName)).map (·.size)) →
        readings (w.serving files) = readings w) := by
  refine ⟨fun strategy settings settings' dhcpServer hretries hsame => ?_, fun files c c' hstrategy hfiles hsettings
    hprogram => ⟨outcome_sameRuns hclock hfiles hstrategy hprogram hsettings, fun hsize => ?_⟩⟩
  · have htime := bootTime_le hretries
    have hsize : UInt64.size = 2 ^ 64 := rfl
    have hstart : Twin ⟨fun _ _ => True, w.seen ++ [], w.seen ++ []⟩ (0 + bootTime settings) w w := by
      exact ⟨⟨rfl, fun _ => rfl, by omega, by omega⟩, [], by simp, by simp⟩
    refine Agree.sameRuns (fun _ _ => True) (t := 0) rfl rfl ?_
    exact agree_proceed (fun _ _ _ _ => trivial) hsame strategy dhcpServer (fun _ _ _ _ => trivial) hstart
  · have hnetboot : (w.serving files).pxeMode = w.pxeMode := rfl
    have hserver : (w.serving files).dhcpServer = w.dhcpServer := rfl
    unfold readings
    rw [hnetboot, hserver]
    cases hs : w.dhcpServer with
    | none => rfl
    | some server => simp only [configuring_eq (v := w.serving files) (w := w) rfl (hsize server hs)]

/-- The server of a program, with the configuration `debug=` and this digit. -/
def configuredServer (digit : UInt8) : World :=
  programServer.serving
    (((⟨10, 0, 0, 1⟩, Config.fileName), #[100, 101, 98, 117, 103, 61, digit, 10]) :: programServer.files)

/-- With diagnostics and without, the program is run alike, and it is run. -/
theorem debug_changes_no_program : (configuredServer 49).clock.toNat < 2 ^ 63 ∧
    SameRuns (readings (configuredServer 49)) (readings (configuredServer 49))
      (outcome { strategy := .firmware } (machine 0) trapsCell)
      (outcome { strategy := .firmware } (machine 0) trapsCell) (configuredServer 49) (configuredServer 48) ∧
    answer (outcome { strategy := .firmware } (machine 0) trapsCell) (configuredServer 49) =
      .ok (.chainloaded .success) := by
  have hclock : (configuredServer 49).clock.toNat < 2 ^ 63 := by decide
  have hserver : (configuredServer 49).dhcpServer = some ⟨10, 0, 0, 1⟩ := rfl
  have hfiles (server : Net.Ipv4) (name : String) (h : Shared (configuredServer 49) server name) :
      (configuredServer 48).files.lookup (server, name) = (configuredServer 49).files.lookup (server, name) := by
    have hother : ((server, name) == ((⟨10, 0, 0, 1⟩ : Net.Ipv4), Config.fileName)) = false := by
      rw [beq_eq_false_iff_ne]
      rintro ⟨⟩
      exact h ⟨hserver, rfl⟩
    simp only [configuredServer, World.serving, List.lookup_cons, hother]
  have hsettings (server : Net.Ipv4) (h : (configuredServer 49).dhcpServer = some server) :
      SameButDebug ((configuredServer 49).configured server) ((configuredServer 48).configured server) := by
    obtain rfl := Option.some.inj (hserver.symm.trans h)
    decide +kernel
  have hprogram (c₁ : Client) (choice : Choice) (u : World)
      (h : choose { strategy := .firmware } (machine 0) (configuredServer 49) = .ok (c₁, .ok choice) u) :
      bootFilePath choice.selection.entry.command ≠ Config.fileName := by
    have hends : endsWith (choose { strategy := .firmware } (machine 0)) (configuredServer 49) (fun r _ =>
        match r.2 with
        | .ok choice => bootFilePath choice.selection.entry.command != Config.fileName
        | .error _ => true) = true := by
      decide +kernel
    rw [endsWith, h] at hends
    exact bne_iff_ne.mp hends
  obtain ⟨hruns, hreadings⟩ := (debug_changes_nothing_booted (n := 0) (configuredServer 49) hclock).2
    (configuredServer 48).files { strategy := .firmware } { strategy := .firmware } rfl hfiles hsettings
    fun c₁ choice u h _ hconfiguration => hprogram c₁ choice u h hconfiguration.2
  have hsame : readings (configuredServer 48) = readings (configuredServer 49) := hreadings fun server h => by
    obtain rfl := Option.some.inj (hserver.symm.trans h)
    rfl
  have hserving : (configuredServer 49).serving (configuredServer 48).files = configuredServer 48 := rfl
  rw [hserving, hsame] at hruns
  have hrun : endsWith (outcome { strategy := .firmware } (machine 0) trapsCell) (configuredServer 49) (fun r _ =>
      r == .chainloaded .success) = true := by
    decide +kernel
  obtain ⟨r, w', hr, h⟩ := exists_of_endsWith hrun
  obtain rfl := eq_of_beq h
  refine ⟨hclock, hruns, ?_⟩
  rw [answer, hr]

end Client

end Boot

end NetBoot
