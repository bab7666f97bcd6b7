/-
  NetBoot.Proofs.Boot.Selection — which server's menu decides.

  The configured servers are asked in turn, eight at most. The turn of a server (`Inquiry.turn`) looks
  its name up, fetches its menu and lets the user choose, with the keys that the turns before it have
  left over; it yields a choice exactly if each of these goes well (`Offers`, `turn_eq_some_iff`), and
  is otherwise passed over, for whatever reason. What happens in it is about that server and no other
  (`About`). By induction over the list a boot takes the first offer there is, and asks no server
  behind it; with no offer at all it goes on without a menu.
-/

import NetBoot.Proofs.Boot.Contact

namespace NetBoot

open Sim

variable {w w' : World}

/-! ## Names -/

namespace Sim

/-- Look-ups of a name, each but the last answered with "not ready" and followed by a second's wait. -/
def lookups (name : String) (last : Except ServiceError Net.Ipv4) : Nat → List Event
  | 0 => [.resolve name last]
  | repeats + 1 => .resolve name (.error .notReady) :: .sleep 1000 :: lookups name last repeats

/-- What a name server answers to a look-up with so many repetitions. -/
def World.lookedUp (w : World) (name : String) (repeats : Nat) : Except ServiceError Net.Ipv4 :=
  if w.lookupsNotReady ≤ repeats then demand (w.hosts.find? name) .notFound else .error .notReady

/-- The address that the name of a server stands for: that of the DHCP server if it is empty, itself if
    it is a dotted quad, and otherwise what its look-up gives. -/
def World.addressOf (w : World) (dhcpServer : Net.Ipv4) (name : String) : Option Net.Ipv4 :=
  if name.isEmpty then some dhcpServer
  else (Net.Ipv4.parse? name).or (w.lookedUp name 10).toOption

/-- What is seen while it is the turn of a name: it is looked up ten times more at most, each time because
    the stack was not ready, and then nobody is asked but the server that it stands for. -/
def About (w : World) (dhcpServer : Net.Ipv4) (name : String) (es : List Event) : Prop :=
  ∃ asks rest, es = asks ++ rest ∧ (asks = [] ∨ ∃ last, ∃ repeats ≤ 10, asks = lookups name last repeats) ∧
    ∀ e ∈ rest, e.IsContact (fun _ => False) (fun server => w.addressOf dhcpServer name = some server)

theorem isContact_of_mem_lookups {servers : Net.Ipv4 → Prop} {name : String} {last : Except ServiceError Net.Ipv4}
    {repeats : Nat} {e : Event} (h : e ∈ lookups name last repeats) : e.IsContact (· = name) servers := by
  induction repeats with
  | zero =>
    rw [List.mem_singleton.mp h]
    rfl
  | succ repeats ih =>
    simp only [lookups, List.mem_cons] at h
    rcases h with rfl | rfl | h
    · rfl
    · trivial
    · exact ih h

end Sim

namespace Boot

variable {n : Nat} {d : Bool}

/-- There is no repetition left, or none is called for. -/
theorem retryLookup_of_done {s : Session Sim} {name : String} {retries : Nat} {result : Except ServiceError Net.Ipv4}
    (h : retries = 0 ∨ result ≠ .error .notReady) : retryLookup s name retries result = pure result := by
  fun_cases retryLookup s name retries result with
  | case1 retries => simp at h
  | case2 => rfl

/-- A look-up is repeated while the stack is not ready, so often at most. -/
theorem lookUp_run (name : String) (retries : Nat) (w : World) :
    ∃ w', (resolveHost name >>= retryLookup ⟨machine n, d⟩ name retries) w = .ok (w.lookedUp name retries) w' ∧
      w'.inner = w.inner ∧ ∃ repeats ≤ retries, Noted (lookups name (w.lookedUp name retries) repeats) w w' := by
  induction retries generalizing w with
  | zero =>
    obtain ⟨asked, h⟩ := resolveHost_run name w
    have hlast : w.hostOf name = w.lookedUp name 0 := by simp [World.hostOf, World.lookedUp]
    rw [hlast] at h
    rw [bind_of_ok h, retryLookup_of_done (.inl rfl)]
    exact ⟨_, rfl, rfl, 0, Nat.le_refl 0, .push rfl⟩
  | succ retries ih =>
    obtain ⟨asked, h⟩ := resolveHost_run name w
    rw [bind_of_ok h]
    by_cases hready : w.lookupsNotReady = 0
    · -- the first answer is the last, and not that the stack is not ready
      have hlast : w.lookedUp name (retries + 1) = w.hostOf name := by simp [World.hostOf, World.lookedUp, hready]
      have hne : w.hostOf name ≠ .error .notReady := by
        rw [World.hostOf, if_pos hready]
        cases w.hosts.find? name <;> simp [demand]
      rw [hlast, retryLookup_of_done (.inr hne)]
      exact ⟨_, rfl, rfl, 0, Nat.zero_le _, .push rfl⟩
    · have hfirst : w.hostOf name = .error .notReady := if_neg hready
      rw [hfirst, retryLookup, machine_resolveHost, machine_toConsole]
      obtain ⟨w', hr, hi, repeats, hle, hn⟩ := ih { w with
        lookups := asked
        lookupsNotReady := w.lookupsNotReady - 1
        events := (w.events.push (.resolve name (.error .notReady))).push (.sleep 1000)
        sleeps := w.sleeps ++ [1000]
        clock := w.clock + 1000 }
      have hlast : w.lookedUp name (retries + 1) =
          ({ w with lookupsNotReady := w.lookupsNotReady - 1 } : World).lookedUp name retries := by
        simp only [World.lookedUp, Nat.sub_le_iff_le_add]
      rw [hlast]
      refine ⟨w', hr, hi, repeats + 1, Nat.succ_le_succ hle, ?_⟩
      rw [Noted, hn]
      simp only [lookups, Array.toList_push, List.append_assoc, List.cons_append, List.nil_append]
      rfl

/-- A name that is neither empty nor an address is looked up. -/
theorem resolve_lookUp_run {name : String} (dhcpServer : Net.Ipv4) (w : World) (hname : name.isEmpty = false)
    (hparse : Net.Ipv4.parse? name = none) :
    ∃ w', resolve ⟨machine n, d⟩ dhcpServer name w = .ok (demand (w.lookedUp name 10).toOption .dnsFailure) w' ∧
      w'.inner = w.inner ∧ ∃ repeats ≤ 10, Noted (lookups name (w.lookedUp name 10) repeats) w w' := by
  unfold resolve Journal.warn
  rw [machine_toJournal, machine_resolveHost, hname, hparse]
  obtain ⟨w₁, hr, hi, hn⟩ : ∃ w₁, (resolveHost name >>= retryLookup ⟨machine n, d⟩ name lookupRetries) w =
      .ok (w.lookedUp name 10) w₁ ∧ w₁.inner = w.inner ∧
      ∃ repeats ≤ 10, Noted (lookups name (w.lookedUp name 10) repeats) w w₁ := lookUp_run name lookupRetries w
  dsimp only
  rw [if_neg Bool.false_ne_true, ← bind_assoc, bind_of_ok hr]
  cases hlast : w.lookedUp name 10 with
  | ok address =>
    rw [hlast] at hn
    exact ⟨w₁, rfl, hi, hn⟩
  | error e =>
    rw [hlast] at hn
    obtain ⟨log, h⟩ := Silent.bind_run (Silent.note _) _ w₁
    exact ⟨{ w₁ with log }, h, hi, hn⟩

/-- The name of a server gives the address that it stands for, or none; it is looked up, unless there is
    no need to, and nothing else happens. -/
theorem resolve_run (dhcpServer : Net.Ipv4) (name : String) (w : World) :
    ∃ w' asks, resolve ⟨machine n, d⟩ dhcpServer name w =
        .ok (demand (w.addressOf dhcpServer name) .dnsFailure) w' ∧
      w'.inner = w.inner ∧ Noted asks w w' ∧
      (asks = [] ∨ ∃ last, ∃ repeats ≤ 10, asks = lookups name last repeats) := by
  unfold World.addressOf
  cases hempty : name.isEmpty with
  | true => exact ⟨w, [], by rw [resolve, hempty]; rfl, rfl, .nil rfl, .inl rfl⟩
  | false =>
    rw [if_neg Bool.false_ne_true]
    cases hparse : Net.Ipv4.parse? name with
    | some address => exact ⟨w, [], by rw [resolve, hempty, hparse]; rfl, rfl, .nil rfl, .inl rfl⟩
    | none =>
      obtain ⟨w', hr, hi, repeats, hle, hn⟩ := resolve_lookUp_run (n := n) (d := d) dhcpServer w hempty hparse
      exact ⟨w', _, hr, hi, hn, .inr ⟨_, repeats, hle, rfl⟩⟩

/-! ## Turns -/

/-- What stays the same from server to server. -/
structure Inquiry (m : Type → Type) where
  session : Session m
  dhcpServer : Net.Ipv4
  identity : Identity
  policy : RetryPolicy

/-- The inquiry of a boot with these settings. -/
def Settings.inquiry {m : Type → Type} (settings : Settings) (session : Session m) (dhcpServer : Net.Ipv4)
    (identity : Identity) : Inquiry m :=
  { session, dhcpServer, identity, policy := { retries := settings.menuRetries } }

namespace Inquiry

section Turns

variable {m : Type → Type} [Monad m] (q : Inquiry m)

/-- Looks a server up, and says which one it is. -/
def address (number : Nat) (name : String) : m (Option Net.Ipv4) := do
  match ← resolve q.session q.dhcpServer name with
  | .error e => do
    q.session.sayDebug [name, ": ", e.message, "\n"]
    return none
  | .ok address =>
    if address.isUnspecified then
      q.session.sayDebug ["server ip [server number ", s!"{number}", "]: ", address.text, " is not valid\n"]
      return none
    else
      q.session.say ["server ip [server number ", s!"{number}", "]: ", address.text, "\n"]
      return some address

/-- The turn of a server in the list: what is chosen from its menu, if it comes to that. -/
def turn (number : Nat) (name : String) : m (Option (Net.Ipv4 × Menu.Selection)) := do
  match ← q.address number name with
  | none => return none
  | some address => return (← askServer q.session q.identity q.policy address).map (address, ·)

theorem selectFrom_cons [LawfulMonad m] (number : Nat) (name : String) (names : List String) :
    selectFrom q.session q.dhcpServer q.identity q.policy number (name :: names) = (do
      match ← q.turn number name with
      | some choice => return .ok choice
      | none => selectFrom q.session q.dhcpServer q.identity q.policy (number + 1) names) := by
  rw [selectFrom, turn, address]
  simp only [bind_assoc]
  refine congrArg (Bind.bind _) (funext fun r => ?_)
  cases r with
  | error e => simp
  | ok address =>
    by_cases hu : address.isUnspecified = true
    · simp [hu]
    · simp only [hu, Bool.false_eq_true, if_false, bind_assoc, pure_bind]
      refine congrArg (Bind.bind _) (funext fun _ => ?_)
      refine congrArg (Bind.bind _) (funext fun chosen => ?_)
      cases chosen with
      | none => simp
      | some selection => simp

end Turns

variable {q : Inquiry Sim} {number i : Nat} {name : String} {names : List String}
  {choice : Net.Ipv4 × Menu.Selection}

/-- Nothing has happened but the turn of a server. -/
def InTurn (q : Inquiry Sim) (name : String) (w w' : World) : Prop :=
  w'.inner = w.inner ∧ ∃ es, Noted es w w' ∧ About w q.dhcpServer name es

namespace InTurn

theorem contact (h : q.InTurn name w w') : Contact (fun _ => True) (fun _ => True) w w' := by
  obtain ⟨hi, es, hn, asks, rest, rfl, hasks, hrest⟩ := h
  refine ⟨hi, _, hn, fun e he => ?_⟩
  rcases List.mem_append.mp he with he | he
  · rcases hasks with rfl | ⟨last, repeats, -, rfl⟩
    · cases he
    · have hlookup : e.IsContact (· = name) fun _ => True := isContact_of_mem_lookups he
      exact hlookup.mono (fun _ _ => trivial) fun _ _ => trivial
  · exact (hrest e he).mono (fun _ _ => trivial) fun _ _ => trivial

/-- What comes behind the look-up is for the server alone. -/
theorem bind {α β : Type} {x : Sim α} {f : α → Sim β} {S : β → World → Prop} (h : q.InTurn name w w')
    (hx : Attended (Contact (fun _ => False) fun server => w.addressOf q.dhcpServer name = some server) x)
    (hf : ∀ a v, q.InTurn name w v → Settles (f a) S v) : Settles (x >>= f) S w' := by
  refine hx.settles_bind fun a v h' => hf a v ?_
  obtain ⟨hi, es, hn, asks, rest, rfl, hasks, hrest⟩ := h
  obtain ⟨es', hn', hes'⟩ := h'.events
  refine ⟨h'.inner_eq.trans hi, _, hn.trans hn', asks, rest ++ es', List.append_assoc .., hasks, fun e he => ?_⟩
  rcases List.mem_append.mp he with he | he
  · exact hrest e he
  · exact hes' e he

end InTurn

section Machine

variable (hq : q.session = ⟨machine n, d⟩)

include hq

/-- A server is known once its name stands for an address that can be asked. -/
theorem address_settles (number : Nat) (name : String) (w : World) :
    Settles (q.address number name) (fun r v =>
      r = (w.addressOf q.dhcpServer name).filter (fun a => !a.isUnspecified) ∧ q.InTurn name w v) w := by
  obtain ⟨v, asks, hr, hi, hn, hasks⟩ := resolve_run (n := n) (d := d) q.dhcpServer name w
  have hturn : q.InTurn name w v := ⟨hi, asks, hn, asks, [], (List.append_nil _).symm, hasks, fun _ h => nomatch h⟩
  unfold address Settles
  rw [hq, bind_of_ok hr]
  show Settles _ _ v
  cases w.addressOf q.dhcpServer name with
  | none => exact hturn.bind (Session.attended_sayDebug _) fun _ v' h => .pure ⟨rfl, h⟩
  | some address =>
    simp only [demand]
    by_cases hu : address.isUnspecified = true
    · have hnone : (some address).filter (fun a => !a.isUnspecified) = none := by simp [hu]
      rw [if_pos hu, hnone]
      exact hturn.bind (Session.attended_sayDebug _) fun _ v' h => .pure ⟨rfl, h⟩
    · have hsome : (some address).filter (fun a => !a.isUnspecified) = some address := by simp [hu]
      rw [if_neg hu, hsome]
      exact hturn.bind (Session.attended_say _) fun _ v' h => .pure ⟨rfl, h⟩

/-- The turn of a server is about it alone. -/
theorem turn_settles (number : Nat) (name : String) (w : World) :
    Settles (q.turn number name) (fun _ => q.InTurn name w) w := by
  refine (address_settles hq number name w).bind ?_
  rintro r v ⟨rfl, hturn⟩
  rw [hq]
  cases haddress : (w.addressOf q.dhcpServer name).filter fun a => !a.isUnspecified with
  | none => exact .pure hturn
  | some address =>
    have hnamed := (Option.filter_eq_some_iff.mp haddress).1
    exact hturn.bind (attended_askServer hnamed _ _) fun _ v' h => .pure h

end Machine

/-! ## Offers -/

/-- The turn of a server that offers a choice: its name stands for an address that can be asked, its menu
    is fetched and read, and the user or the default decides. -/
structure Offers (q : Inquiry Sim) (number : Nat) (name : String) (w : World) (choice : Net.Ipv4 × Menu.Selection)
    (w' : World) : Prop where
  named : w.addressOf q.dhcpServer name = some choice.1
  specified : choice.1 ≠ .unspecified
  chosen : ∃ known menu listed, q.address number name w = .ok (some choice.1) known ∧
    loadMenu q.session ⟨choice.1, q.identity.mac, q.identity.uuid⟩ q.identity.architecture q.policy choice.1.text
      known = .ok (.ok menu) listed ∧
    menu.select q.session.host listed = .ok (some choice.2) w'

theorem askServer_eq_some_iff {s : Session Sim} {identity : Identity} {policy : RetryPolicy} {address : Net.Ipv4}
    {selection : Menu.Selection} :
    askServer s identity policy address w = .ok (some selection) w' ↔ ∃ menu v,
      loadMenu s ⟨address, identity.mac, identity.uuid⟩ identity.architecture policy address.text w = .ok (.ok menu) v ∧
      menu.select s.host v = .ok (some selection) w' := by
  unfold askServer
  rw [bind_eq_ok_iff]
  constructor
  · rintro ⟨r, v, hload, h⟩
    cases r with
    | error e =>
      obtain ⟨u, v', -, h⟩ := bind_eq_ok_iff.mp h
      cases h
    | ok menu => exact ⟨menu, v, hload, h⟩
  · rintro ⟨menu, v, hload, h⟩
    exact ⟨_, v, hload, h⟩

/-- A turn comes to a choice exactly if the server offers it. -/
theorem turn_eq_some_iff (hq : q.session = ⟨machine n, d⟩) :
    q.turn number name w = .ok (some choice) w' ↔ q.Offers number name w choice w' := by
  unfold turn
  rw [bind_eq_ok_iff]
  constructor
  · rintro ⟨r, known, haddress, h⟩
    obtain ⟨hr, -⟩ := (address_settles hq number name w).of_settles haddress
    cases r with
    | none => cases h
    | some address =>
      obtain ⟨hnamed, hspecified⟩ := Option.filter_eq_some_iff.mp hr.symm
      obtain ⟨chosen, v, hask, h⟩ := bind_eq_ok_iff.mp h
      cases chosen with
      | none => cases h
      | some selection =>
        cases h
        obtain ⟨menu, listed, hload, hselect⟩ := askServer_eq_some_iff.mp hask
        have hne : address ≠ .unspecified := by simpa [Net.Ipv4.isUnspecified] using hspecified
        exact ⟨hnamed, hne, known, menu, listed, haddress, hload, hselect⟩
  · rintro ⟨-, -, known, menu, listed, haddress, hload, hselect⟩
    refine ⟨_, known, haddress, ?_⟩
    dsimp only
    rw [bind_of_ok (askServer_eq_some_iff.mpr ⟨menu, listed, hload, hselect⟩)]
    rfl

/-! ## The list -/

/-- The world behind the turns of these servers, of which the first has this number. -/
def asked (q : Inquiry Sim) : Nat → List String → World → World
  | _, [], w => w
  | number, name :: names, w => q.asked (number + 1) names (after (q.turn number name) w)

/-- Of these servers the one at index `i` is the first that offers a choice when its turn comes. -/
structure FirstOffer (q : Inquiry Sim) (number : Nat) (names : List String) (w : World) (i : Nat)
    (choice : Net.Ipv4 × Menu.Selection) (w' : World) : Prop where
  offers : ∃ name, names[i]? = some name ∧
    q.Offers (number + i) name (q.asked number (names.take i) w) choice w'
  first : ∀ j < i, ∀ name, names[j]? = some name →
    ∀ choice v, ¬ q.Offers (number + j) name (q.asked number (names.take j) w) choice v

/-- Lists of events, one for each turn from the first on: each is about the server whose turn it was. -/
def AboutEach (q : Inquiry Sim) (number : Nat) (names : List String) (w : World) (turns : List (List Event)) : Prop :=
  ∀ j es, turns[j]? = some es → ∃ name, names[j]? = some name ∧
    About (q.asked number (names.take j) w) q.dhcpServer name es

theorem firstOffer_zero :
    q.FirstOffer number (name :: names) w 0 choice w' ↔ q.Offers number name w choice w' := by
  constructor
  · rintro ⟨⟨name', hname, h⟩, -⟩
    simp at hname
    subst hname
    exact h
  · intro h
    exact ⟨⟨name, rfl, h⟩, fun j hj => absurd hj (Nat.not_lt_zero j)⟩

theorem firstOffer_succ :
    q.FirstOffer number (name :: names) w (i + 1) choice w' ↔
      (∀ choice v, ¬ q.Offers number name w choice v) ∧
      q.FirstOffer (number + 1) names (after (q.turn number name) w) i choice w' := by
  have hnumber (j : Nat) : number + (j + 1) = number + 1 + j := by omega
  constructor
  · rintro ⟨⟨name', hname, h⟩, hfirst⟩
    refine ⟨hfirst 0 (Nat.succ_pos i) name rfl, ⟨name', hname, ?_⟩, fun j hj name'' hname'' => ?_⟩
    · rw [← hnumber]
      exact h
    · rw [← hnumber]
      exact hfirst (j + 1) (Nat.succ_lt_succ hj) name'' hname''
  · rintro ⟨hno, ⟨name', hname, h⟩, hfirst⟩
    refine ⟨⟨name', hname, ?_⟩, fun j hj name'' hname'' => ?_⟩
    · rw [hnumber]
      exact h
    · cases j with
      | zero =>
        simp at hname''
        subst hname''
        exact hno
      | succ j =>
        rw [hnumber]
        exact hfirst j (Nat.lt_of_succ_lt_succ hj) name'' hname''

theorem aboutEach_cons {es : List Event} {turns : List (List Event)} (h : About w q.dhcpServer name es)
    (ht : q.AboutEach (number + 1) names (after (q.turn number name) w) turns) :
    q.AboutEach number (name :: names) w (es :: turns) := by
  intro j es' hj
  cases j with
  | zero =>
    simp at hj
    subst hj
    exact ⟨name, rfl, h⟩
  | succ j => exact ht j es' hj

/-- There is one first offer at most. -/
theorem FirstOffer.unique (hq : q.session = ⟨machine n, d⟩) {i' : Nat} {choice' : Net.Ipv4 × Menu.Selection}
    {v : World} (h : q.FirstOffer number names w i choice w') (h' : q.FirstOffer number names w i' choice' v) :
    i = i' ∧ choice = choice' ∧ w' = v := by
  obtain ⟨⟨name, hname, hoffer⟩, hfirst⟩ := h
  obtain ⟨⟨name', hname', hoffer'⟩, hfirst'⟩ := h'
  have hi : i = i' := by
    rcases Nat.lt_trichotomy i i' with hlt | heq | hlt
    · exact absurd hoffer (hfirst' i hlt name hname choice w')
    · exact heq
    · exact absurd hoffer' (hfirst i' hlt name' hname' choice' v)
  subst hi
  rw [hname] at hname'
  cases hname'
  have hrun := (turn_eq_some_iff hq).mpr hoffer
  rw [(turn_eq_some_iff hq).mpr hoffer'] at hrun
  cases hrun
  exact ⟨rfl, rfl, rfl⟩

/-- What a list of servers comes to: the first offer there is, behind the turns up to it and no other; or
    no offer, behind the turns of all. -/
theorem selectFrom_run (hq : q.session = ⟨machine n, d⟩) {r : Except BootError (Net.Ipv4 × Menu.Selection)} :
    selectFrom q.session q.dhcpServer q.identity q.policy number names w = .ok r w' →
    ∃ turns tail, Noted (turns.flatten ++ tail) w w' ∧ q.AboutEach number names w turns ∧
      match r with
      | .ok choice => tail = [] ∧ ∃ i, turns.length = i + 1 ∧ q.FirstOffer number names w i choice w'
      | .error e => e = .noMenuOffered ∧ (∀ e ∈ tail, e.IsContact (fun _ => False) fun _ => False) ∧
        turns.length = names.length ∧ ∀ i choice v, ¬ q.FirstOffer number names w i choice v := by
  intro h
  induction names generalizing number w with
  | nil =>
    rw [selectFrom, hq] at h
    obtain ⟨u, v, hsay, h⟩ := bind_eq_ok_iff.mp h
    cases h
    obtain ⟨-, es, hn, hes⟩ := (Session.attended_say _).of_ok hsay
    refine ⟨[], es, hn, fun j es h => (nomatch h), rfl, hes, rfl, ?_⟩
    rintro i choice v ⟨⟨name, hname, -⟩, -⟩
    cases hname
  | cons name names ih =>
    rw [selectFrom_cons] at h
    obtain ⟨result, v, hturn, h⟩ := bind_eq_ok_iff.mp h
    obtain ⟨-, es, hn, habout⟩ := (turn_settles hq number name w).of_settles hturn
    cases result with
    | some choice =>
      cases h
      refine ⟨[es], [], ?_, aboutEach_cons habout fun j es h => (nomatch h), rfl, 0, rfl, ?_⟩
      · simpa using hn
      · exact firstOffer_zero.mpr ((turn_eq_some_iff hq).mp hturn)
    | none =>
      have hno (choice : Net.Ipv4 × Menu.Selection) (v' : World) : ¬ q.Offers number name w choice v' := by
        intro hoffer
        rw [(turn_eq_some_iff hq).mpr hoffer] at hturn
        cases hturn
      obtain ⟨turns, tail, hn', heach, hr⟩ := ih h
      rw [← after_of_ok hturn] at heach hr
      refine ⟨es :: turns, tail, ?_, aboutEach_cons habout heach, ?_⟩
      · rw [List.flatten_cons, List.append_assoc]
        exact hn.trans hn'
      · cases r with
        | ok choice =>
          obtain ⟨htail, i, hlength, hfirst⟩ := hr
          exact ⟨htail, i + 1, by rw [List.length_cons, hlength], firstOffer_succ.mpr ⟨hno, hfirst⟩⟩
        | error e =>
          obtain ⟨he, htail, hlength, hnone⟩ := hr
          refine ⟨he, htail, by rw [List.length_cons, List.length_cons, hlength], fun i choice v' hfirst => ?_⟩
          cases i with
          | zero => exact hno choice v' (firstOffer_zero.mp hfirst)
          | succ i => exact hnone i choice v' (firstOffer_succ.mp hfirst).2

/-- The list is asked to its end unless a key is waited for that never comes. -/
theorem attended_selectFrom (hq : q.session = ⟨machine n, d⟩) (number : Nat) (names : List String) :
    Attended (Contact (fun _ => True) fun _ => True)
      (selectFrom q.session q.dhcpServer q.identity q.policy number names) := by
  induction names generalizing number with
  | nil =>
    rw [selectFrom, hq]
    exact .bind Contact.ordered (Session.attended_say _) fun _ => .pure Contact.ordered _
  | cons name names ih =>
    rw [selectFrom_cons]
    refine .bind Contact.ordered (fun w => (turn_settles hq number name w).mono fun _ _ h => h.contact) fun r => ?_
    cases r with
    | some choice => exact .pure Contact.ordered _
    | none => exact ih _

/-- Of a list that is cut, the servers in front of the cut are what it was. -/
theorem firstOffer_take {k : Nat} :
    q.FirstOffer number (names.take k) w i choice w' ↔ i < k ∧ q.FirstOffer number names w i choice w' := by
  have htake {j : Nat} (hj : j ≤ k) : (names.take k).take j = names.take j := by rw [List.take_take, Nat.min_eq_left hj]
  constructor
  · rintro ⟨⟨name, hname, hoffer⟩, hfirst⟩
    obtain ⟨hi, hname⟩ : i < k ∧ names[i]? = some name := by simpa [List.getElem?_take] using hname
    rw [htake (by omega)] at hoffer
    refine ⟨hi, ⟨name, hname, hoffer⟩, fun j hj name' hname' => ?_⟩
    rw [← htake (show j ≤ k by omega)]
    exact hfirst j hj name' (by rw [List.getElem?_take_of_lt (by omega), hname'])
  · rintro ⟨hi, ⟨name, hname, hoffer⟩, hfirst⟩
    refine ⟨⟨name, by rw [List.getElem?_take_of_lt hi, hname], ?_⟩, fun j hj name' hname' => ?_⟩
    · rw [htake (by omega)]
      exact hoffer
    · rw [List.getElem?_take_of_lt (by omega)] at hname'
      rw [htake (by omega)]
      exact hfirst j hj name' hname'

theorem aboutEach_take {k : Nat} {turns : List (List Event)} (h : q.AboutEach number (names.take k) w turns) :
    q.AboutEach number names w turns := by
  intro j es hj
  obtain ⟨name, hname, habout⟩ := h j es hj
  obtain ⟨hjk, hname⟩ : j < k ∧ names[j]? = some name := by simpa [List.getElem?_take] using hname
  rw [List.take_take, Nat.min_eq_left (by omega)] at habout
  exact ⟨name, hname, habout⟩

end Inquiry

/-- Unless a key is waited for that never comes, a boot chooses from the first of its eight servers that
    offers a choice when its turn comes, and is done with the list behind the turns up to that one; if
    there is none, it has gone through the turns of all, and no menu was offered. -/
theorem selectEntry_takes_first_offer {settings : Settings} {dhcpServer : Net.Ipv4} {identity : Identity}
    (hkeys : ∀ v, selectEntry ⟨machine n, d⟩ settings dhcpServer identity w ≠ .error .noKeyLeft v) :
    let q := settings.inquiry ⟨machine n, d⟩ dhcpServer identity
    (∀ choice w', selectEntry ⟨machine n, d⟩ settings dhcpServer identity w = .ok (.ok choice) w' ↔
      ∃ i < 8, q.FirstOffer 0 settings.servers w i choice w') ∧
    (∀ i < 8, ∀ choice w', q.FirstOffer 0 settings.servers w i choice w' → ∃ turns,
      Noted turns.flatten w w' ∧ turns.length = i + 1 ∧ q.AboutEach 0 settings.servers w turns) ∧
    ((∀ i < 8, ∀ choice v, ¬ q.FirstOffer 0 settings.servers w i choice v) → ∃ w' turns tail,
      selectEntry ⟨machine n, d⟩ settings dhcpServer identity w = .ok (.error .noMenuOffered) w' ∧
      Noted (turns.flatten ++ tail) w w' ∧ turns.length ≤ 8 ∧ q.AboutEach 0 settings.servers w turns ∧
      ∀ e ∈ tail, e.IsContact (fun _ => False) fun _ => False) := by
  intro q
  have hrun : selectEntry ⟨machine n, d⟩ settings dhcpServer identity =
      selectFrom q.session q.dhcpServer q.identity q.policy 0 (settings.servers.take 8) := rfl
  rw [hrun] at hkeys ⊢
  obtain ⟨r, v, hr⟩ : ∃ r v, selectFrom q.session q.dhcpServer q.identity q.policy 0 (settings.servers.take 8) w = .ok r v := by
    rcases q.attended_selectFrom rfl 0 (settings.servers.take 8) w with ⟨r, v, hr, -⟩ | ⟨v, hr, -⟩
    · exact ⟨r, v, hr⟩
    · exact absurd hr (hkeys v)
  obtain ⟨turns, tail, hn, heach, hcame⟩ := Inquiry.selectFrom_run (q := q) rfl hr
  rw [hr]
  cases r with
  | ok choice =>
    obtain ⟨rfl, i, hlength, hfirst⟩ := hcame
    rw [List.append_nil] at hn
    have hi := Inquiry.firstOffer_take.mp hfirst
    have hunique {i' : Nat} {choice' : Net.Ipv4 × Menu.Selection} {w' : World}
        (h : q.FirstOffer 0 settings.servers w i' choice' w') : i = i' ∧ choice = choice' ∧ v = w' :=
      hi.2.unique rfl h
    refine ⟨fun choice' w' => ⟨fun h => ?_, ?_⟩, ?_, fun hnone => absurd hi.2 (hnone i hi.1 choice v)⟩
    · cases h
      exact ⟨i, hi⟩
    · rintro ⟨i', -, h⟩
      obtain ⟨-, rfl, rfl⟩ := hunique h
      rfl
    · intro i' _ choice' w' h
      obtain ⟨rfl, -, rfl⟩ := hunique h
      exact ⟨turns, hn, hlength, Inquiry.aboutEach_take heach⟩
  | error e =>
    obtain ⟨rfl, htail, hlength, hnone⟩ := hcame
    have hnone {i : Nat} {choice : Net.Ipv4 × Menu.Selection} {w' : World} (hi : i < 8) :
        ¬ q.FirstOffer 0 settings.servers w i choice w' :=
      fun h => hnone i choice w' (Inquiry.firstOffer_take.mpr ⟨hi, h⟩)
    refine ⟨fun choice w' => ⟨fun h => (nomatch h), ?_⟩, fun i hi choice w' h => absurd h (hnone hi), fun _ => ?_⟩
    · rintro ⟨i, hi, h⟩
      exact absurd h (hnone hi)
    · refine ⟨v, turns, tail, rfl, hn, ?_, Inquiry.aboutEach_take heach, htail⟩
      rw [hlength, List.length_take]
      exact Nat.min_le_left _ _

/-- A server with a menu of one entry, its default. -/
def menuServer : World where
  files := [((⟨10, 0, 0, 9⟩, "/bbl/001a2b3c4d5e/00000000-0000-0000-0000-000000000000/menu#7"),
    (Menu.Record.encode { kind := .localDisk, flags := 1, text := "disk" }).toArray)]

/-- Behind a name that nobody knows, it is the first with an offer. -/
theorem menuServer_takes_first_offer :
    let lab : Settings := { servers := ["lab", "10.0.0.9"] }
    let client : Identity := ⟨.ofBytes #[0x00, 0x1a, 0x2b, 0x3c, 0x4d, 0x5e], none, 7⟩
    ∃ choice w', selectEntry ⟨machine 0, false⟩ lab ⟨10, 0, 0, 1⟩ client menuServer = .ok (.ok choice) w' ∧
      choice.1 = ⟨10, 0, 0, 9⟩ ∧ ∃ i < 8, ∃ turns : List (List Event),
        Noted turns.flatten menuServer w' ∧ turns.length = i + 1 ∧
        (lab.inquiry ⟨machine 0, false⟩ ⟨10, 0, 0, 1⟩ client).FirstOffer 0 lab.servers menuServer i choice w' := by
  intro lab client
  have hends : endsWith (selectEntry ⟨machine 0, false⟩ lab ⟨10, 0, 0, 1⟩ client) menuServer
      (fun r _ => r.toOption.any fun choice => choice.1 == ⟨10, 0, 0, 9⟩) = true := by decide +kernel
  obtain ⟨r, w', hr, h⟩ := exists_of_endsWith hends
  cases r with
  | error e => cases h
  | ok choice =>
    have haddress : choice.1 = ⟨10, 0, 0, 9⟩ := beq_iff_eq.mp h
    have hkeys (v : World) :
        selectEntry ⟨machine 0, false⟩ lab ⟨10, 0, 0, 1⟩ client menuServer ≠ .error .noKeyLeft v :=
      fun hv => nomatch hr.symm.trans hv
    obtain ⟨hiff, hturns, -⟩ := selectEntry_takes_first_offer hkeys
    obtain ⟨i, hi, hfirst⟩ := (hiff choice w').mp hr
    obtain ⟨turns, hn, hlength, -⟩ := hturns i hi choice w' hfirst
    exact ⟨choice, w', hr, haddress, i, hi, turns, hn, hlength, hfirst⟩

end Boot

end NetBoot
