/-
  NetBoot.Proofs.Boot.Effects — what a boot does comes behind the choice, and is what was chosen.

  Up to its choice a boot asks servers for its configuration and for menus, and for nothing else
  (`choose_inquires`); a boot without a choice ends there. Behind the choice it sends two commands, each
  if it is due, and goes on whatever they are answered (`report_reports`). A program is run for an entry to
  chainload only: the boot parameters are rewritten once, the program is fetched from the server that
  they then name, and what happens to memory and images comes behind that (`Chainloads`). The whole of a
  boot is these parts in this order (`start_effects_follow_choice`).
-/

import NetBoot.Proofs.Boot.Exchange
import NetBoot.Proofs.Boot.Outcome
import NetBoot.Proofs.Text.Utf8

namespace NetBoot.Boot

open Sim

variable {n : Nat} {d : Bool} {w v : World} {reserves : Nat → Bool}

/-! ## Names of requests -/

theorem utf8Len_hexPadded : ∀ n < 256, Text.utf8Len (Text.hexPadded 2 n).toList = 2 := by decide +kernel

theorem utf8Len_hexOfBytes (bs : List UInt8) : Text.utf8Len (Text.hexOfBytes bs).toList = 2 * bs.length := by
  induction bs with
  | nil => rfl
  | cons b bs ih =>
    rw [Text.hexOfBytes, List.map_cons, String.join_cons, String.toList_append, Text.utf8Len_append,
      utf8Len_hexPadded _ b.toNat_lt, ← Text.hexOfBytes, ih, List.length_cons]
    omega

/-- What the names of all requests of a client begin with. -/
def requestPrefix (mac : Net.Mac) (uuid : Option String) : List Char :=
  ['/', 'b', 'b', 'l', '/'] ++ (mac.compact.toList ++ (['/'] ++ ((uuid.getD nilUuid).toList ++ ['/'])))

theorem toList_requestName (mac : Net.Mac) (uuid : Option String) (action : Action) :
    (requestName mac uuid action).toList = Text.cut maxRequest (requestPrefix mac uuid ++ action.text.toList) := by
  generalize hu : uuid.getD nilUuid = u
  simp [requestName, Text.cutString, requestPrefix, hu, toString]

theorem utf8Len_requestPrefix (mac : Net.Mac) (uuid : Option String) :
    Text.utf8Len (requestPrefix mac uuid) = 19 + Text.utf8Len (uuid.getD nilUuid).toList := by
  have hslash : Text.utf8Len ['/'] = 1 := rfl
  have hroot : Text.utf8Len ['/', 'b', 'b', 'l', '/'] = 5 := rfl
  have hmac : Text.utf8Len mac.compact.toList = 12 := by
    rw [Net.Mac.compact, utf8Len_hexOfBytes, Vector.length_toList]
  simp only [requestPrefix, Text.utf8Len_append, hroot, hslash, hmac]
  omega

/-- No request is for the configuration. -/
theorem requestName_ne_fileName (mac : Net.Mac) (uuid : Option String) (action : Action) :
    requestName mac uuid action ≠ Config.fileName := by
  intro h
  have hlist := congrArg String.toList h
  rw [toList_requestName, requestPrefix, List.append_assoc, Text.cut_append (by decide)] at hlist
  have hfifth := congrArg (·[4]?) hlist
  simp [Config.fileName] at hfifth

/-- The letter that what is asked for begins with. -/
def Action.initial : Action → Char
  | menu _ => 'm'
  | updateBootEnv _ => 'u'
  | setPathPrefix .. => 's'

theorem Action.head?_text (action : Action) : action.text.toList.head? = some action.initial := by
  cases action with
  | menu architecture =>
    show ("menu#" ++ toString architecture.toNat).toList.head? = some 'm'
    simp
  | updateBootEnv guid =>
    show ("updateclientbootenv#" ++ guid).toList.head? = some 'u'
    simp
  | setPathPrefix guid path =>
    show ("setpathprefix#" ++ guid ++ "#" ++ path).toList.head? = some 's'
    simp

/-- A UUID of a usual length leaves room for what is asked for, so requests of different kinds differ. -/
theorem initial_eq_of_requestName_eq {mac : Net.Mac} {uuid : Option String} {action action' : Action}
    (hu : Text.utf8Len (uuid.getD nilUuid).toList ≤ 108)
    (h : requestName mac uuid action = requestName mac uuid action') : action.initial = action'.initial := by
  have hfits : Text.utf8Len (requestPrefix mac uuid) ≤ maxRequest := by
    rw [utf8Len_requestPrefix, maxRequest]
    omega
  have hroom : 1 ≤ maxRequest - Text.utf8Len (requestPrefix mac uuid) := by
    rw [utf8Len_requestPrefix, maxRequest]
    omega
  have hcut (action : Action) : (Text.cut (maxRequest - Text.utf8Len (requestPrefix mac uuid))
      action.text.toList).head? = some action.initial := by
    obtain ⟨rest, htext⟩ := List.head?_eq_some_iff.mp action.head?_text
    have hsize : action.initial.utf8Size = 1 := by cases action <;> rfl
    rw [htext, Text.cut, if_pos (by omega)]
    rfl
  have hlist := congrArg String.toList h
  rw [toList_requestName, toList_requestName, Text.cut_append hfits, Text.cut_append hfits,
    List.append_cancel_left_eq] at hlist
  have hhead := congrArg List.head? hlist
  rw [hcut, hcut] at hhead
  exact Option.some.inj hhead

/-! ## Up to the choice -/

/-- The files that a client asks for before it has chosen: its configuration, and menus. -/
def Inquires (w : World) (server : Net.Ipv4) (name : String) : Prop :=
  (w.dhcpServer = some server ∧ name = Config.fileName) ∨
    ∃ mac architecture, w.mac = .ok mac ∧ name = requestName mac w.uuid (.menu architecture)

/-- With a UUID of a usual length, none of them is a command. -/
theorem not_inquires_command {server : Net.Ipv4} {mac : Net.Mac} {action : Action}
    (hu : Text.utf8Len (w.uuid.getD nilUuid).toList ≤ 108) (hm : w.mac = .ok mac) (ha : action.initial ≠ 'm') :
    ¬ Inquires w server (requestName mac w.uuid action) := by
  rintro (⟨-, hname⟩ | ⟨mac', architecture, hm', hname⟩)
  · exact requestName_ne_fileName mac w.uuid action hname
  · obtain rfl := Except.ok.inj (hm.symm.trans hm')
    exact ha (initial_eq_of_requestName_eq hu hname)

/-- Dealing with the operator, looking names up, and asking for nothing but that. -/
abbrev Inquiring (w : World) : World → World → Prop := Exchange (Inquires w)

/-- A client shows itself as what it is. -/
theorem identify_eq_ok {identity : Identity} {v' : World} (h : identify ⟨machine n, d⟩ v = .ok (.ok identity) v') :
    v.mac = .ok identity.mac ∧ identity.uuid = v.uuid := by
  have hA := exchange_attends (fun _ _ => True) (n := n) (d := d)
  obtain ⟨r, v₁, hmac, h⟩ := bind_eq_ok_iff.mp h
  rw [clientMac_run] at hmac
  cases hmac
  cases hm : v.mac with
  | error e =>
    rw [hm] at h
    cases h
  | ok mac =>
    rw [hm] at h
    obtain ⟨u₂, v₂, hsaid, h⟩ := bind_eq_ok_iff.mp h
    obtain ⟨r₃, v₃, hannounced, h⟩ := bind_eq_ok_iff.mp h
    have h₂ : v₂.inner = v.inner := ((hA.sayDebug _).of_ok hsaid).inner_eq
    have h₃ : v₃.inner = v₂.inner := (hA.announcedArchitecture.of_ok hannounced).inner_eq
    cases r₃ with
    | error e => cases h
    | ok architecture =>
      obtain ⟨u₄, v₄, hsaid', h⟩ := bind_eq_ok_iff.mp h
      obtain ⟨uuid, v₅, huuid, h⟩ := bind_eq_ok_iff.mp h
      have h₄ : v₄.inner = v₃.inner := ((hA.sayDebug _).of_ok hsaid').inner_eq
      have hsame : v₄.uuid = v.uuid := eq_of_inner_eq (f := (·.uuid)) (fun _ => rfl) (h₄.trans (h₃.trans h₂))
      have hread : (EStateM.Result.ok v₄.uuid v₄ : EStateM.Result Abort World _) = .ok uuid v₅ :=
        (systemUuid_run n v₄).symm.trans huuid
      cases hread
      cases h
      exact ⟨rfl, hsame⟩

namespace Client

/-- The choice that settings lead to comes from a menu that was asked for. -/
theorem chooseWith_inquires (hmac : v.mac = w.mac) (huuid : v.uuid = w.uuid) (settings : Settings)
    (dhcpServer : Net.Ipv4) : Inquiring w v (after (chooseWith ⟨machine n, d⟩ settings dhcpServer) v) := by
  have ho : Ordered (Inquiring w) := Exchange.ordered
  have hA := exchange_attends (Inquires w) (n := n) (d := d)
  refine after_bind ho (hA.sayDebug _ v) fun _ v₁ _ h₁ => ?_
  refine after_bind ho (hA.identify v₁) fun r v₂ hr _ => ?_
  cases r with
  | error e => exact ho.refl _
  | ok identity =>
    obtain ⟨hm, hu⟩ := identify_eq_ok hr
    have hmac₁ : v₁.mac = v.mac := eq_of_inner_eq (fun _ => rfl) h₁.inner_eq
    have huuid₁ : v₁.uuid = v.uuid := eq_of_inner_eq (fun _ => rfl) h₁.inner_eq
    have hmenu (address : Net.Ipv4) :
        Inquires w address (requestName identity.mac identity.uuid (.menu identity.architecture)) := by
      refine .inr ⟨identity.mac, identity.architecture, ?_, ?_⟩
      · rw [← hmac, ← hmac₁, hm]
      · rw [hu, huuid₁, huuid]
    refine after_bind ho (hA.debugDelay 5 v₂) fun _ v₃ _ _ => ?_
    refine after_bind ho (hA.selectFrom exchange_resolveHost hmenu _ _ _ _ v₃) fun r v₄ _ _ => ?_
    cases r with
    | error e => exact ho.refl _
    | ok offer => exact ho.refl _

/-- Up to its choice, a boot inquires. -/
theorem choose_inquires (c : Client) (w : World) : Inquiring w w (after (c.choose (machine n)) w) := by
  have ho : Ordered (Inquiring w) := Exchange.ordered
  have hA := exchange_attends (Inquires w) (n := n) (d := c.debug)
  unfold choose
  rw [after_bind_of_ok (pxeMode_run n w)]
  split
  · exact ho.refl _
  rw [after_bind_of_ok (dhcpServer_run n w)]
  cases hserver : w.dhcpServer with
  | none => exact after_bind ho (hA.refuse _ _ _ w) fun _ _ _ _ => ho.refl _
  | some dhcpServer =>
    refine after_bind ho (hA.configuration (.inl ⟨hserver, rfl⟩) w) fun r v _ h => ?_
    cases r with
    | error e => exact after_bind ho (hA.refuse _ _ _ v) fun _ _ _ _ => ho.refl _
    | ok properties =>
      have hlimit (limit : Log.Limit) : Keeps (Inquiring w) ((machine n).setLogLimit limit) :=
        .of_run fun v => ⟨(), _, setLogLimit_run n limit v, ⟨⟨rfl, .of_eq rfl⟩, rfl⟩⟩
      refine after_bind ho (hlimit _ v) fun _ v' _ h' => ?_
      have hinner : v'.inner = w.inner := h'.inner_eq.trans h.inner_eq
      have hmac : v'.mac = w.mac := eq_of_inner_eq (fun _ => rfl) hinner
      have huuid : v'.uuid = w.uuid := eq_of_inner_eq (fun _ => rfl) hinner
      dsimp only
      rw [after_map]
      exact chooseWith_inquires hmac huuid _ _

/-- What a choice came from: the configuration of the DHCP server, and what was chosen from the menu of one
    of the servers that it names. -/
structure Chosen (n : Nat) (w : World) (c : Client) (properties : PropertyList) (choice : Choice) (v : World) :
    Prop where
  settings_eq : c.settings = .ofProperties properties
  mac_eq : w.mac = .ok choice.identity.mac
  uuid_eq : choice.identity.uuid = w.uuid
  selected : ∃ dhcpServer menuServer configured asked, w.dhcpServer = some dhcpServer ∧
    PropertyList.fetch (machine n).toNetwork dhcpServer w = .ok (.ok properties) configured ∧
    selectEntry ⟨machine n, c.debug⟩ c.settings dhcpServer choice.identity asked =
      .ok (.ok (menuServer, choice.selection)) v ∧
    choice.server = if properties.isEnabled "bootfrommenuserver" then menuServer else dhcpServer

theorem chooseWith_eq_ok {settings : Settings} {dhcpServer : Net.Ipv4} {choice : Choice} {v' : World}
    (h : chooseWith ⟨machine n, d⟩ settings dhcpServer v = .ok (.ok choice) v') :
    v.mac = .ok choice.identity.mac ∧ choice.identity.uuid = v.uuid ∧ ∃ menuServer asked,
      selectEntry ⟨machine n, d⟩ settings dhcpServer choice.identity asked =
        .ok (.ok (menuServer, choice.selection)) v' ∧
      choice.server = if settings.bootFromMenuServer then menuServer else dhcpServer := by
  have hA := exchange_attends (fun _ _ => True) (n := n) (d := d)
  obtain ⟨u₁, v₁, hsaid, h⟩ := bind_eq_ok_iff.mp h
  obtain ⟨r, v₂, hidentified, h⟩ := bind_eq_ok_iff.mp h
  have hinner : v₁.inner = v.inner := ((hA.sayDebug _).of_ok hsaid).inner_eq
  cases r with
  | error e => cases h
  | ok identity =>
    obtain ⟨hmac, huuid⟩ := identify_eq_ok hidentified
    obtain ⟨u₃, asked, hdelayed, h⟩ := bind_eq_ok_iff.mp h
    obtain ⟨r, v₄, hselected, h⟩ := bind_eq_ok_iff.mp h
    cases r with
    | error e => cases h
    | ok offer =>
      cases h
      have hmac₁ : v₁.mac = v.mac := eq_of_inner_eq (fun _ => rfl) hinner
      have huuid₁ : v₁.uuid = v.uuid := eq_of_inner_eq (fun _ => rfl) hinner
      exact ⟨hmac₁ ▸ hmac, huuid.trans huuid₁, offer.1, asked, hselected, rfl⟩

theorem choose_eq_ok {c c' : Client} {choice : Choice} (h : c.choose (machine n) w = .ok (c', .ok choice) v) :
    w.pxeMode.isNetboot = true ∧ c'.strategy = c.strategy ∧ ∃ properties, Chosen n w c' properties choice v := by
  have hA := exchange_attends (fun _ _ => True) (n := n) (d := c.debug)
  unfold choose at h
  rw [bind_of_ok (pxeMode_run n w)] at h
  split at h
  · cases h
  rename_i hnetboot
  rw [bind_of_ok (dhcpServer_run n w)] at h
  cases hserver : w.dhcpServer with
  | none =>
    rw [hserver] at h
    obtain ⟨_, _, -, h⟩ := bind_eq_ok_iff.mp h
    cases h
  | some dhcpServer =>
    rw [hserver] at h
    obtain ⟨r, configured, hfetched, h⟩ := bind_eq_ok_iff.mp h
    have hinner : configured.inner = w.inner := ((hA.configuration trivial).of_ok hfetched).inner_eq
    cases r with
    | error e =>
      obtain ⟨_, _, -, h⟩ := bind_eq_ok_iff.mp h
      cases h
    | ok properties =>
      obtain ⟨_, v₂, hlimit, h⟩ := bind_eq_ok_iff.mp h
      obtain ⟨r, v₃, hchosen, h⟩ := bind_eq_ok_iff.mp h
      cases h
      rw [setLogLimit_run] at hlimit
      cases hlimit
      obtain ⟨hmac, huuid, menuServer, asked, hselected, hboot⟩ := chooseWith_eq_ok hchosen
      have hmac' : configured.mac = w.mac := eq_of_inner_eq (fun _ => rfl) hinner
      have huuid' : configured.uuid = w.uuid := eq_of_inner_eq (fun _ => rfl) hinner
      exact ⟨by simpa using hnetboot, rfl, properties, rfl, hmac' ▸ hmac, huuid.trans huuid', dhcpServer, menuServer,
        configured, asked, hserver, hfetched, hselected, hboot⟩

end Client

/-! ## Commands -/

/-- Talk, and between it a request for a file, if it is due. -/
def Tells (reserves : Nat → Bool) (due : Prop) (server : Net.Ipv4) (name : String) (es : List Event) : Prop :=
  ∃ before told behind, es = before ++ (told ++ behind) ∧ AllTalk before ∧ AllTalk behind ∧
    (due → ∃ came, Request reserves server name came told) ∧ (¬ due → told = [])

namespace Tells

variable {due : Prop} {server : Net.Ipv4} {name : String} {es talk : List Event}

/-- What is said first does not count. -/
theorem said_before (h : Tells reserves due server name es) (ht : AllTalk talk) : Tells reserves due server name (talk ++ es) := by
  obtain ⟨before, told, behind, rfl, hbefore, hbehind, htold⟩ := h
  refine ⟨talk ++ before, told, behind, (List.append_assoc ..).symm, fun e he => ?_, hbehind, htold⟩
  exact (List.mem_append.mp he).elim (ht e) (hbefore e)

/-- What is said last does not count. -/
theorem said_behind (h : Tells reserves due server name es) (ht : AllTalk talk) : Tells reserves due server name (es ++ talk) := by
  obtain ⟨before, told, behind, rfl, hbefore, hbehind, htold⟩ := h
  refine ⟨before, told, behind ++ talk, by simp only [List.append_assoc], hbefore, fun e he => ?_, htold⟩
  exact (List.mem_append.mp he).elim (hbehind e) (ht e)

theorem of_talk (h : ¬ due) (ht : AllTalk talk) : Tells reserves due server name talk :=
  ⟨talk, [], [], (List.append_nil _).symm, ht, List.forall_mem_nil _, fun hd => absurd hd h, fun _ => rfl⟩

theorem of_request {came : Bool} (h : due) (hr : Request reserves server name came es) : Tells reserves due server name es :=
  ⟨[], es, [], (List.append_nil _).symm, List.forall_mem_nil _, List.forall_mem_nil _, fun _ => ⟨came, hr⟩,
    fun hn => absurd h hn⟩

end Tells

/-- A command that is due is sent once, and its answer only shown. -/
theorem tell_tells {due : Prop} (h : due) (server : Server) (action : Action) :
    Notes reserves (fun _ => Tells reserves due server.address (requestName server.mac server.uuid action))
      (tell ⟨machine n, d⟩ server action) := by
  have hcommand : Notes reserves (fun _ => Tells reserves due server.address (requestName server.mac server.uuid action))
      (server.command (machine n).toNetwork action) := by
    unfold Server.command Server.fetch Journal.debug Journal.warn
    rw [machine_networkJournal, bind_assoc]
    refine .quiet_bind (.note _) ((Transfer.notes_fetch _ _).bind fun r es hes => ?_)
    have htells : Tells reserves due server.address (requestName server.mac server.uuid action) (es ++ []) :=
      (Tells.of_request h hes).said_behind (List.forall_mem_nil _)
    cases r with
    | error e => exact .pure htells
    | ok body =>
      dsimp only
      split
      · exact .pure htells
      · exact .quiet_bind (.note _) (.pure htells)
  refine hcommand.bind fun r es htells => ?_
  cases r with
  | ok u => exact .pure (htells.said_behind (List.forall_mem_nil _))
  | error e => exact (Session.notes_say _).mono fun _ _ htalk => htells.said_behind htalk

/-- The events of the two commands, one behind the other. The server is told which boot environment starts,
    unless its own default was chosen, and has the path prefix set where there is a path and `keepsPrefix` does
    not forbid it. -/
def Reports (reserves : Nat → Bool) (keepsPrefix : Bool) (server : Server) (selection : Menu.Selection)
    (es : List Event) : Prop :=
  ∃ first second, es = first ++ second ∧
    Tells reserves (selection.entry.updatesBootEnv = true ∧ selection.defaultChosen = false) server.address
      (requestName server.mac server.uuid (.updateBootEnv selection.entry.bootEnvGuid)) first ∧
    Tells reserves (selection.entry.kind ≠ .localDisk ∧ selection.entry.kind ≠ .bootPrompt ∧ keepsPrefix = false)
      server.address (requestName server.mac server.uuid
        (.setPathPrefix selection.entry.bootEnvGuid selection.entry.pathPrefix)) second

theorem Reports.with_talk {keepsPrefix : Bool} {server : Server} {selection : Menu.Selection}
    {before es behind : List Event} (h : Reports reserves keepsPrefix server selection es) (hb : AllTalk before)
    (hb' : AllTalk behind) :
    Reports reserves keepsPrefix server selection (before ++ (es ++ behind)) := by
  obtain ⟨first, second, rfl, hfirst, hsecond⟩ := h
  exact ⟨before ++ first, second ++ behind, by simp only [List.append_assoc], hfirst.said_before hb,
    hsecond.said_behind hb'⟩

theorem tellsBootEnv_iff (selection : Menu.Selection) :
    tellsBootEnv selection = true ↔ selection.entry.updatesBootEnv = true ∧ selection.defaultChosen = false := by
  simp [tellsBootEnv]

theorem setsPathPrefix_iff (settings : Settings) (entry : Menu.Entry) :
    setsPathPrefix settings entry = true ↔
      entry.kind ≠ .localDisk ∧ entry.kind ≠ .bootPrompt ∧ settings.dontSetPathPrefix = false := by
  simp [setsPathPrefix, and_assoc]

/-- The commands that are due are sent, in this order, and whatever they are answered it comes to an end. -/
theorem report_reports (settings : Settings) (server : Server) (selection : Menu.Selection) :
    Notes reserves (fun _ => Reports reserves settings.dontSetPathPrefix server selection)
      (report ⟨machine n, d⟩ settings server selection) := by
  have hsecond : Notes reserves (fun _ => Tells reserves (selection.entry.kind ≠ .localDisk ∧ selection.entry.kind ≠ .bootPrompt ∧
        settings.dontSetPathPrefix = false) server.address
      (requestName server.mac server.uuid (.setPathPrefix selection.entry.bootEnvGuid selection.entry.pathPrefix)))
      (if setsPathPrefix settings selection.entry then do
        Session.say ⟨machine n, d⟩ ["Setting TFTP path prefix to \"", selection.entry.pathPrefix, "\"...\n"]
        tell ⟨machine n, d⟩ server (.setPathPrefix selection.entry.bootEnvGuid selection.entry.pathPrefix)
      else Session.say ⟨machine n, d⟩ ["Skipped setting the TFTP path prefix due to configuration\n"] : Sim Unit) := by
    split
    case isTrue h =>
      refine (Session.notes_say _).bind fun _ talk htalk => ?_
      have hdue := (setsPathPrefix_iff settings selection.entry).mp h
      exact (tell_tells hdue server _).mono fun _ _ htells => htells.said_before htalk
    case isFalse h =>
      have hdue := mt (setsPathPrefix_iff settings selection.entry).mpr h
      exact (Session.notes_say _).mono fun _ _ htalk => .of_talk hdue htalk
  unfold report
  dsimp only
  split
  case isTrue h =>
    have hdue := (tellsBootEnv_iff selection).mp h
    refine (Session.notes_say _).bind fun _ talk htalk => (tell_tells hdue server _).bind fun _ es htells => ?_
    refine hsecond.mono fun _ es' htells' => ?_
    exact ⟨talk ++ es, es', (List.append_assoc ..).symm, htells.said_before htalk, htells'⟩
  case isFalse h =>
    have hdue := mt (tellsBootEnv_iff selection).mpr h
    exact hsecond.mono fun _ es htells => ⟨[], es, rfl, .of_talk hdue (List.forall_mem_nil _), htells⟩

/-! ## Programs -/

/-- What is seen of running the program `name` of a server: without a server, nothing. Otherwise the boot
    parameters are rewritten, and if that can be done the program is fetched from the server that they then
    name; memory and images are touched behind that, and only if the program came. -/
inductive Chainloads (reserves : Nat → Bool) (server : Net.Ipv4) (name : String) : List Event → Prop
  | noServer (h : server.isUnspecified = true) : Chainloads reserves server name []
  | refused (e : ServiceError) : Chainloads reserves server name [.redirect name server (.error e)]
  | fetched {talk request behind : List Event} {came : Bool} (ht : AllTalk talk)
      (hr : Request reserves server (bootFilePath name) came request)
      (hb : ∀ e ∈ behind, e.isTalk = true ∨ came = true ∧ e.isAside = false) :
      Chainloads reserves server name (.redirect name server (.ok ()) :: (talk ++ (request ++ behind)))

theorem notes_redirectBoot (name : String) (server : Net.Ipv4) :
    Notes reserves (fun r es => es = [.redirect name server r]) (redirectBoot name server) := by
  intro w hw
  obtain ⟨r, events, redirects, pxeMode, hr, -, hn⟩ := redirectBoot_run name server w
  exact ⟨r, _, hr, hw, _, hn, rfl⟩

/-- What came of a program is shown if it is a failure. -/
def Chainloader.showFailure (s : Session Sim) (path : String) : Except BootError Exit → Sim (Except BootError Exit)
  | .ok exit => return .ok exit
  | .error e => do
    s.say ["\nWindows PE network boot [", path, "] failed: ", e.message, "\n"]
    s.debugDelay 5
    return .error e

theorem Chainloader.notes_showFailure (path : String) (r : Except BootError Exit) :
    Notes reserves (fun _ => AllTalk) (showFailure ⟨machine n, d⟩ path r) := by
  have ho := Beside.ordered (·.isTalk = true)
  cases r with
  | ok exit => exact .of_beside (.pure ho _)
  | error e =>
    exact .of_beside (.bind ho (talk_speaks.say _) fun _ => .bind ho (talk_speaks.debugDelay 5) fun _ => .pure ho _)

theorem run_chainloads (hnetboot : v.pxeMode.isNetboot = true) (c : Chainloader) (name : String) (server : Net.Ipv4) :
    Adds (Chainloads v.reserves server name) v (after (c.run ⟨machine n, d⟩ trapsCell name server) v) := by
  have ho := Emits.ordered Event.IsRunning
  unfold Chainloader.run
  rw [after_bind_of_ok (pxeMode_run n v), hnetboot, machine_redirectBoot]
  dsimp only
  rw [if_neg (by decide)]
  split
  case isTrue h => exact ⟨[], .nil rfl, .noServer h⟩
  refine (notes_redirectBoot name server).adds_bind rfl ?_
  rintro (e | u) v₁ _ - hv₁ rfl
  · exact ⟨[], .nil rfl, .refused e⟩
  refine (Session.notes_sayDebug _).adds_bind hv₁ fun _ v₂ said _ hv₂ hsaid => ?_
  refine (Session.notes_debugDelay 5).adds_bind hv₂ fun _ v₃ delayed _ hv₃ hdelayed => ?_
  unfold Chainloader.fetchAndStart
  rw [bind_assoc]
  refine (Transfer.notes_fetch server (bootFilePath name)).adds_bind hv₃ fun r v₄ request _ hv₄ hrequest => ?_
  have htalk : AllTalk (said ++ delayed) := fun e he => (List.mem_append.mp he).elim (hsaid e) (hdelayed e)
  have hfetched {behind : List Event} (hb : ∀ e ∈ behind, e.isTalk = true ∨ r.isOk = true ∧ e.isAside = false) :
      Chainloads v.reserves server name ([.redirect name server (.ok u)] ++ (said ++ (delayed ++ (request ++ behind)))) := by
    have h := Chainloads.fetched htalk hrequest hb
    rw [List.append_assoc] at h
    exact h
  cases r with
  | error e =>
    have hbehind : Keeps (Emits (·.isTalk = true))
        (Chainloader.showFailure ⟨machine n, d⟩ (bootFilePath name) (.error e)) :=
      Notes.keeps (fun _ => Chainloader.notes_showFailure _ _) fun _ _ hes => hes
    obtain ⟨es, hn, hes⟩ := hbehind v₄
    exact ⟨es, hn, hfetched fun e he => .inl (hes e he)⟩
  | ok raw =>
    have hbehind : Keeps (Emits Event.IsRunning) (c.startFetched ⟨machine n, d⟩ trapsCell (bootFilePath name) raw >>=
        Chainloader.showFailure ⟨machine n, d⟩ (bootFilePath name)) :=
      .bind ho (c.emits_startFetched _ raw) fun r =>
        Notes.keeps (fun _ => Chainloader.notes_showFailure _ r) fun _ _ hes e he => .inl (hes e he)
    obtain ⟨es, hn, hes⟩ := hbehind v₄
    exact ⟨es, hn, hfetched fun e he => (hes e he).imp id fun h => ⟨rfl, h⟩⟩

/-- What is seen of carrying out an entry: a program is run for one to chainload, and nothing but talk for
    any other. -/
def Performs (reserves : Nat → Bool) (server : Net.Ipv4) (entry : Menu.Entry) (es : List Event) : Prop :=
  if entry.kind = .chainload then
    ∃ talk ran, es = talk ++ ran ∧ AllTalk talk ∧ Chainloads reserves server entry.command ran
  else AllTalk es

theorem perform_performs (hnetboot : v.pxeMode.isNetboot = true) (c : Chainloader) (server : Net.Ipv4)
    (entry : Menu.Entry) :
    Adds (Performs v.reserves server entry) v (after (perform ⟨machine n, d⟩ trapsCell c server entry) v) := by
  have hA := exchange_attends (fun _ _ => True) (n := n) (d := d)
  unfold perform
  by_cases hkind : entry.kind = .chainload
  · simp only [hkind]
    refine (Session.notes_say _).adds_bind rfl fun _ v₁ talk hsaid hv₁ htalk => ?_
    have hmode : v₁.pxeMode = v.pxeMode := ((hA.say _).of_ok hsaid).pxeMode_eq
    rw [after_map]
    obtain ⟨ran, hn, hran⟩ := run_chainloads (hmode ▸ hnetboot) c entry.command server
    rw [hv₁] at hran
    have hperforms : Performs v.reserves server entry (talk ++ ran) := by
      rw [Performs, if_pos hkind]
      exact ⟨talk, ran, rfl, htalk, hran⟩
    exact ⟨ran, hn, hperforms⟩
  · have hperforms {talk : List Event} (htalk : AllTalk talk) : Performs v.reserves server entry (talk ++ []) := by
      rw [Performs, if_neg hkind, List.append_nil]
      exact htalk
    split
    · contradiction
    · exact (Session.notes_say _).adds_bind rfl fun _ v₁ talk _ _ htalk => ⟨[], .nil rfl, hperforms htalk⟩
    · exact (Session.notes_say _).adds_bind rfl fun _ v₁ talk _ _ htalk => ⟨[], .nil rfl, hperforms htalk⟩

/-! ## Whole boots -/

/-- Everything that is done with a choice before it is performed. -/
def announceChoice (s : Session Sim) (settings : Settings) (identity : Identity) (address : Net.Ipv4)
    (selection : Menu.Selection) : Sim Unit := do
  s.say ["\n\n", selection.entry.text, "\n\n"]
  report s settings ⟨address, identity.mac, identity.uuid⟩ selection
  s.debugDelay 5

theorem announceChoice_reports (settings : Settings) (identity : Identity) (address : Net.Ipv4)
    (selection : Menu.Selection) :
    Notes reserves
      (fun _ => Reports reserves settings.dontSetPathPrefix ⟨address, identity.mac, identity.uuid⟩ selection)
      (announceChoice ⟨machine n, d⟩ settings identity address selection) := by
  refine (Session.notes_say _).bind fun _ before hbefore => (report_reports _ _ _).bind fun _ es hes => ?_
  exact (Session.notes_debugDelay 5).mono fun _ behind hbehind => hes.with_talk hbefore hbehind

theorem announceChoice_exchanges (settings : Settings) (identity : Identity) (address : Net.Ipv4)
    (selection : Menu.Selection) :
    Keeps (Exchange fun _ _ => True)
      (announceChoice ⟨machine n, d⟩ settings identity address selection) := by
  have ho : Ordered (Exchange fun _ _ => True) := Exchange.ordered
  have hA := exchange_attends (fun _ _ => True) (n := n) (d := d)
  refine .bind ho (hA.say _) fun _ => .bind ho ?_ fun _ => hA.debugDelay 5
  exact hA.report ⟨address, identity.mac, identity.uuid⟩ (fun _ => trivial) (Eq.refl settings.dontSetPathPrefix)
    selection

namespace Client

theorem carryOut_eq (c : Client) (choice : Choice) :
    c.carryOut (machine n) trapsCell choice = (do
      announceChoice ⟨machine n, c.debug⟩ c.settings choice.identity choice.server choice.selection
      perform ⟨machine n, c.debug⟩ trapsCell ⟨c.strategy, c.settings.alwaysSecureBootChain⟩ choice.server
        choice.selection.entry) := by
  unfold carryOut processEntry announceChoice
  simp only [bind_assoc]

/-- Without a choice a boot ends there, and has failed. -/
theorem start_of_not_chosen {c : Client} (h : ∀ c' choice v, c.choose (machine n) w ≠ .ok (c', .ok choice) v) :
    after (c.start (machine n) trapsCell) w = after (c.choose (machine n)) w ∧
      ∀ c' outcome v, c.start (machine n) trapsCell w ≠ .ok (c', .ok outcome) v := by
  cases hchosen : c.choose (machine n) w with
  | error e v =>
    have hstart : c.start (machine n) trapsCell w = .error e v := by rw [start_eq, bind_of_error hchosen]
    refine ⟨?_, fun c' outcome v' h' => nomatch hstart.symm.trans h'⟩
    unfold after
    rw [hstart, hchosen]
  | ok r v =>
    obtain ⟨c', e | choice⟩ := r
    · have hstart : c.start (machine n) trapsCell w = .ok (c', .error e) v := by
        rw [start_eq, bind_of_ok hchosen]
        rfl
      refine ⟨?_, fun c'' outcome v' h' => nomatch hstart.symm.trans h'⟩
      rw [after_of_ok hstart, after_of_ok hchosen]
    · exact absurd hchosen (h c' choice v)

/-- Up to the choice a boot inquires, which is to request no command; without a choice that is all, and it fails.
    With one, the commands that are due go to the boot server, in their order, and the boot goes on from where
    they end, whatever was answered; then the entry is performed. -/
theorem start_effects_follow_choice (c : Client) (w : World) :
    Inquiring w w (after (c.choose (machine n)) w) ∧
    (Text.utf8Len (w.uuid.getD nilUuid).toList ≤ 108 → ∀ server mac guid path, w.mac = .ok mac →
      ¬ Inquires w server (requestName mac w.uuid (.updateBootEnv guid)) ∧
      ¬ Inquires w server (requestName mac w.uuid (.setPathPrefix guid path))) ∧
    match c.choose (machine n) w with
    | .ok (c', .ok choice) v => ∃ properties u told performed, Chosen n w c' properties choice v ∧
        Noted told v u ∧ Noted performed u (after (c.start (machine n) trapsCell) w) ∧
        Reports w.reserves (properties.isEnabled "dontsetpathprefix")
          ⟨choice.server, choice.identity.mac, choice.identity.uuid⟩ choice.selection told ∧
        Performs w.reserves choice.server choice.selection.entry performed ∧
        c.start (machine n) trapsCell w = (do
          return (c', ← perform ⟨machine n, c'.debug⟩ trapsCell ⟨c'.strategy, c'.settings.alwaysSecureBootChain⟩
            choice.server choice.selection.entry)) u
    | _ => after (c.start (machine n) trapsCell) w = after (c.choose (machine n)) w ∧
        ∀ c' outcome v, c.start (machine n) trapsCell w ≠ .ok (c', .ok outcome) v := by
  have hinquires := c.choose_inquires (n := n) w
  refine ⟨hinquires, fun hu server mac guid path hm => ⟨?_, ?_⟩, ?_⟩
  · exact not_inquires_command hu hm (by simp [Action.initial])
  · exact not_inquires_command hu hm (by simp [Action.initial])
  split
  case h_1 c' choice v hchosen =>
    obtain ⟨hnetboot, -, properties, hfrom⟩ := choose_eq_ok hchosen
    rw [after_of_ok hchosen] at hinquires
    have hroom : v.reserves = w.reserves := eq_of_inner_eq (fun _ => rfl) hinquires.inner_eq
    obtain ⟨_, u, hannounced, hroom', told, htold, hreports⟩ := announceChoice_reports (n := n) (d := c'.debug)
      c'.settings choice.identity choice.server choice.selection v hroom
    rw [hfrom.settings_eq] at hreports
    have hmode : u.pxeMode = w.pxeMode :=
      ((announceChoice_exchanges _ _ _ _).of_ok hannounced).pxeMode_eq.trans hinquires.pxeMode_eq
    have hstart : c.start (machine n) trapsCell w = (do
        return (c', ← perform ⟨machine n, c'.debug⟩ trapsCell ⟨c'.strategy, c'.settings.alwaysSecureBootChain⟩
          choice.server choice.selection.entry)) u := by
      rw [start_eq, bind_of_ok hchosen]
      dsimp only
      rw [carryOut_eq, bind_assoc, bind_of_ok hannounced]
    have hafter : after (c.start (machine n) trapsCell) w = after (perform ⟨machine n, c'.debug⟩ trapsCell
        ⟨c'.strategy, c'.settings.alwaysSecureBootChain⟩ choice.server choice.selection.entry) u := by
      rw [← after_map _ (fun r => (c', r)) u]
      unfold after
      rw [hstart]
    obtain ⟨performed, hperformed, hperforms⟩ := perform_performs (n := n) (d := c'.debug) (hmode ▸ hnetboot)
      ⟨c'.strategy, c'.settings.alwaysSecureBootChain⟩ choice.server choice.selection.entry
    rw [← hafter] at hperformed
    rw [hroom'] at hperforms
    exact ⟨properties, u, told, performed, hfrom, htold, hperformed, hreports, hperforms, hstart⟩
  case h_2 hnone => exact start_of_not_chosen fun c' choice v h => hnone c' choice v h

/-- The server of a program is asked, its program is chosen, and the commands that are due come before the rest. -/
theorem programServer_effects : ∃ c' choice v properties u told performed,
    choose {} (machine 0) programServer = .ok (c', .ok choice) v ∧ choice.selection.entry.kind = .chainload ∧
      Chosen 0 programServer c' properties choice v ∧ Noted told v u ∧
      Noted performed u (after (start {} (machine 0) trapsCell) programServer) ∧
      Reports programServer.reserves (properties.isEnabled "dontsetpathprefix")
        ⟨choice.server, choice.identity.mac, choice.identity.uuid⟩ choice.selection told ∧
      Performs programServer.reserves choice.server choice.selection.entry performed := by
  have hends : endsWith (choose {} (machine 0)) programServer (fun r _ =>
      match r.2 with
      | .ok choice => choice.selection.entry.kind == .chainload
      | .error _ => false) = true := by
    decide +kernel
  obtain ⟨⟨c', r⟩, v, hchosen, hkind⟩ := exists_of_endsWith hends
  cases r with
  | error e => exact absurd hkind Bool.false_ne_true
  | ok choice =>
    have heffects (w : World) (hw : choose {} (machine 0) w = .ok (c', .ok choice) v) := by
      have h := (start_effects_follow_choice (n := 0) {} w).2.2
      rw [hw] at h
      exact h
    obtain ⟨properties, u, told, performed, hfrom, htold, hperformed, hreports, hperforms, -⟩ :=
      heffects programServer hchosen
    exact ⟨c', choice, v, properties, u, told, performed, hchosen, beq_iff_eq.mp hkind, hfrom, htold, hperformed,
      hreports, hperforms⟩

end Client

end NetBoot.Boot
