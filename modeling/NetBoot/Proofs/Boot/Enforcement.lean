/-
  NetBoot.Proofs.Boot.Enforcement — where signatures are enforced, nothing runs that was not verified.

  `Guarded` says what may happen behind the events before it: no pages and no entry point of our own,
  the firmware is handed only a boot part that was verified, and starts only what it made of one. A
  list of events is `Lawful` when each of them may happen where it stands. The events of a validated
  launch are lawful (`Lawful.of_validated`), talk and transfers around it change nothing about that
  (`Lawful.append`), and so a whole run of a boot program is (`Enforced`), whichever strategy starts
  it.
-/

import NetBoot.Boot.Chainload
import NetBoot.Proofs.Boot.Transfer
import NetBoot.Proofs.Image.Validation

namespace NetBoot.Boot

open Sim

variable {n : Nat} {d : Bool} {w w' : World}

/-! ## Lawful events -/

/-- May this happen behind the events `before`, where signatures are enforced? -/
def Guarded (isPart : Bytes → Prop) (before : List Event) : Event → Prop
  | .allocatePages .. | .callEntry .. => False
  | .loadImage _ _ source _ => isPart source ∧ .verify source (some .success) ∈ before
  | .startImage handle => ∃ parent path source, .loadImage parent path source (.ok handle) ∈ before
  | _ => True

/-- Every event may happen behind those before it. -/
def Lawful (isPart : Bytes → Prop) (es : List Event) : Prop :=
  ∀ before e later, es = before ++ e :: later → Guarded isPart before e

variable {isPart : Bytes → Prop} {es es' : List Event}

theorem Guarded.mono {before : List Event} {e : Event} (h : Guarded isPart before e) (es : List Event) :
    Guarded isPart (es ++ before) e := by
  cases e
  case allocatePages => exact h
  case callEntry => exact h
  case loadImage => exact ⟨h.1, List.mem_append_right _ h.2⟩
  case startImage =>
    obtain ⟨parent, path, source, hm⟩ := h
    exact ⟨parent, path, source, List.mem_append_right _ hm⟩
  all_goals trivial

theorem Guarded.of_aside {before : List Event} {e : Event} (h : e.isAside = true) : Guarded isPart before e := by
  cases e
  case allocatePages => cases h
  case callEntry => cases h
  case loadImage => cases h
  case startImage => cases h
  all_goals trivial

namespace Lawful

theorem nil : Lawful isPart [] := fun before e later h => by simp at h

theorem append (h : Lawful isPart es) (h' : Lawful isPart es') : Lawful isPart (es ++ es') := by
  intro before e later heq
  rcases List.append_eq_append_iff.mp heq with ⟨between, rfl, hs⟩ | ⟨between, rfl, hs⟩
  · exact (h' between e later hs).mono es
  · cases between with
    | nil =>
      have hg := (h' [] e later hs.symm).mono before
      rwa [List.append_nil] at hg
    | cons e' between =>
      rw [List.cons_append, List.cons.injEq] at hs
      rw [hs.1]
      exact h before e' between rfl

theorem snoc {e : Event} (h : Lawful isPart es) (he : Guarded isPart es e) : Lawful isPart (es ++ [e]) := by
  intro before e' later heq
  rcases List.eq_nil_or_concat later with rfl | ⟨later, last, rfl⟩
  · obtain ⟨rfl, hs⟩ := List.append_inj' heq rfl
    cases hs
    exact he
  · rw [List.concat_eq_append, ← List.cons_append, ← List.append_assoc] at heq
    obtain ⟨rfl, -⟩ := List.append_inj' heq rfl
    exact h before e' later rfl

/-- Events that may happen anywhere. -/
theorem of_free (h : ∀ e ∈ es, ∀ before, Guarded isPart before e) : Lawful isPart es := by
  rintro before e later rfl
  exact h e (List.mem_append_right _ List.mem_cons_self) before

theorem of_aside (h : ∀ e ∈ es, e.isAside = true) : Lawful isPart es :=
  of_free fun e he _ => .of_aside (h e he)

/-- A validated launch of a part hands over that part alone, and only once it was verified. -/
theorem of_validated {part : Bytes} {answer : Option Status} {result : Except Image.LoadError Exit}
    (hp : isPart part) (h : Image.ValidatedEvents part answer es result) : Lawful isPart es := by
  have hverify : Lawful isPart [.verify part answer] := by
    refine of_free fun e he before => ?_
    rw [List.mem_singleton.mp he]
    trivial
  cases h with
  | refused _ => exact hverify
  | notLoaded h =>
    cases Image.Secure.verdict_eq_ok_iff.mp h
    exact hverify.snoc ⟨hp, List.mem_singleton_self _⟩
  | @started parent handle path updates exit h hu =>
    cases Image.Secure.verdict_eq_ok_iff.mp h
    have hload : Lawful isPart [.verify part (some .success), .loadImage parent path part (.ok handle)] :=
      hverify.snoc ⟨hp, List.mem_singleton_self _⟩
    have hupdates : Lawful isPart updates := by
      refine of_free fun e he before => ?_
      obtain ⟨record, rfl⟩ := hu e he
      trivial
    refine (hload.append hupdates).snoc (e := .startImage handle) ⟨parent, path, part, ?_⟩
    exact List.mem_append_left _ (List.mem_cons_of_mem _ (List.mem_singleton_self _))

end Lawful

/-! ## A run of a boot program -/

/-- Does the firmware get or start an image? -/
def isHandover : Event → Bool
  | .loadImage .. | .startImage .. => true
  | _ => false

theorem isHandover_of_aside {e : Event} (h : e.isAside = true) : isHandover e = false := by
  cases e
  case loadImage => cases h
  case startImage => cases h
  all_goals rfl

/-- The part for this machine of a boot file. -/
def IsBootPart (w : World) (server : Net.Ipv4) (path : String) (part : Bytes) : Prop :=
  ∃ raw selection, w.files.lookup (server, path) = some raw ∧ Image.Fat.select raw .native = .ok selection ∧
    part = selection.apply raw

/-- The boot file can be fetched, this client's own record read, and a part of the file selected. -/
def Ready (w : World) (server : Net.Ipv4) (path : String) : Prop :=
  ∃ raw record selection, w.fetched server path = .ok raw ∧ w.recordOf ownHandle = .ok record ∧
    Image.Fat.select raw .native = .ok selection

/-- A run from `w` kept to the enforcement of signatures. -/
structure Enforced (w : World) (server : Net.Ipv4) (path : String) (es : List Event)
    (result : Except BootError Exit) : Prop where
  lawful : Lawful (IsBootPart w server path) es
  no_handover : w.answer ≠ some .success → ∀ e ∈ es, isHandover e = false
  unavailable : w.answer = none → Ready w server path → result = .error (.image .validatorUnavailable)
  rejected : ∀ status, w.answer = some status → status ≠ .success → Ready w server path →
    result = .error (.image .signatureInvalid)

namespace Enforced

variable {server : Net.Ipv4} {path : String} {final : Except BootError Exit}

/-- A run that stops before the verdict. -/
theorem of_aside (h : ∀ e ∈ es, e.isAside = true) (hr : ¬Ready w server path) : Enforced w server path es final where
  lawful := .of_aside h
  no_handover _ e he := isHandover_of_aside (h e he)
  unavailable _ hready := absurd hready hr
  rejected _ _ _ hready := absurd hready hr

/-- A run that comes to a validated launch of the boot part. -/
theorem of_validated {raw : Bytes} {selection : Image.Fat.Selection} {result : Except Image.LoadError Exit}
    (ha : ∀ e ∈ es, e.isAside = true) (hraw : w.fetched server path = .ok raw)
    (hsel : Image.Fat.select raw .native = .ok selection)
    (h : Image.ValidatedEvents (selection.apply raw) w.answer es' result)
    (hfinal : ∀ e, result = .error e → final = .error (.image e)) : Enforced w server path (es ++ es') final where
  lawful := (Lawful.of_aside ha).append
    (.of_validated ⟨raw, selection, Transfer.fetched_eq_ok hraw, hsel, rfl⟩ h)
  no_handover hne := by
    obtain ⟨e', -, rfl, -⟩ := h.eq_of_ne hne
    intro e he
    rcases List.mem_append.mp he with he | he
    · exact isHandover_of_aside (ha e he)
    · rw [List.mem_singleton.mp he]
      rfl
  unavailable hnone _ := by
    obtain ⟨e, hv, -, hr⟩ := h.eq_of_ne (by rw [hnone]; exact fun h => nomatch h)
    rw [hnone] at hv
    cases hv
    exact hfinal _ hr
  rejected status hsome hne _ := by
    obtain ⟨e, hv, -, hr⟩ := h.eq_of_ne (by rw [hsome]; exact fun h => hne (Option.some.inj h))
    rw [hsome, Image.Secure.verdict_of_ne hne] at hv
    cases hv
    exact hfinal _ hr

/-- Talk before and behind a run changes nothing about it. -/
theorem around {es'' : List Event} (h : Enforced w' server path es' final) (ht : Talk w w')
    (ha : ∀ e ∈ es, e.isAside = true) (ha' : ∀ e ∈ es'', e.isAside = true) :
    Enforced w server path (es ++ (es' ++ es'')) final := by
  obtain ⟨⟨_, _, _, _, _, _, rfl⟩, -⟩ := ht
  refine ⟨(Lawful.of_aside ha).append (h.lawful.append (.of_aside ha')), ?_, h.unavailable, h.rejected⟩
  intro hne e he
  rcases List.mem_append.mp he with he | he
  · exact isHandover_of_aside (ha e he)
  · rcases List.mem_append.mp he with he | he
    · exact h.no_handover hne e he
    · exact isHandover_of_aside (ha' e he)

end Enforced

theorem validates_of_talk (h : Talk w w') (l : Image.Loader) : l.validates w' = l.validates w := by
  obtain ⟨⟨_, _, _, _, _, _, rfl⟩, -⟩ := h
  rfl

namespace Chainloader

/-- The loader that a boot program is run with. -/
abbrev loader (c : Chainloader) : Image.Loader := { config := { forceValidation := c.alwaysValidate } }

/-- Whichever strategy it has, a start is a validated launch where signatures are checked. -/
theorem start_run {c : Chainloader} (hv : c.loader.validates w = true) (raw : Bytes) (context : Image.LaunchContext) :
    ∃ result es w', c.start ⟨machine n, d⟩ trapsCell raw context w = .ok (result.mapError .image) w' ∧
      Noted es w w' ∧
      match Image.Fat.select raw .native with
      | .error e => es = [] ∧ result = .error e
      | .ok selection => Image.ValidatedEvents (selection.apply raw) w.answer es result := by
  obtain ⟨log, hm⟩ := c.loader.mustValidate_run (n := n) w
  rw [hv] at hm
  obtain ⟨l', result, es, w', hr, hn, hes⟩ := c.loader.launchValidated_run (n := n) raw context { w with log }
  refine ⟨result, es, w', ?_, hn, hes⟩
  unfold start
  cases c.strategy with
  | core =>
    dsimp only
    unfold Image.Loader.loadAndLaunch
    rw [bind_assoc, bind_of_ok hm, if_pos rfl, bind_of_ok hr]
    rfl
  | firmware =>
    dsimp only
    rw [bind_of_ok hm, if_pos rfl, bind_of_ok hr]
    rfl

theorem context_run (path : String) (w : World) :
    ∃ r, context (machine n).toFirmware path w = .ok r w ∧
      (∀ record, w.recordOf ownHandle = .ok record → ∃ c, r = .ok c) ∧ ∀ c, r = .ok c → c.handle = ownHandle := by
  unfold context
  rw [machine_imageHandle, machine_loadedImage, pure_bind, bind_of_ok (loadedImage_run _ _)]
  cases w.recordOf ownHandle with
  | error e => exact ⟨_, rfl, fun _ h => (nomatch h), fun _ h => (nomatch h)⟩
  | ok record =>
    dsimp only
    rw [bind_of_ok (devicePath_run _ _ _)]
    refine ⟨_, rfl, fun _ _ => ⟨_, rfl⟩, fun c h => ?_⟩
    cases h
    rfl

/-- A program that failed stays failed, and is at most noted in the log. -/
theorem conclude_run (path : String) (exit : Exit) (w : World) :
    ∃ r log, conclude ⟨machine n, d⟩ path exit w = .ok r { w with log } ∧
      ∀ exit', r = .ok exit' → exit'.isSuccess = true := by
  unfold conclude Journal.error
  split
  · next h =>
    refine ⟨_, w.log, rfl, fun exit' hr => ?_⟩
    cases hr
    exact h
  · obtain ⟨log, h⟩ := Silent.bind_run (Silent.note _) _ w
    rw [machine_toJournal]
    exact ⟨_, log, h, fun _ hr => (nomatch hr)⟩

theorem fetchAndStart_run {c : Chainloader} (hv : c.loader.validates w = true) (path : String) (server : Net.Ipv4) :
    ∃ final es w', c.fetchAndStart ⟨machine n, d⟩ trapsCell path server w = .ok final w' ∧ Noted es w w' ∧
      Enforced w server path es final := by
  unfold fetchAndStart
  obtain ⟨w₁, hf, ⟨events, log, sizeFailures, reads, rfl⟩, es₁, hn₁, ha₁⟩ :=
    Transfer.fetch_run (n := n) server path w
  dsimp only
  rw [bind_of_ok hf]
  cases hraw : w.fetched server path with
  | error e =>
    refine ⟨.error e, es₁, _, rfl, hn₁, .of_aside ha₁ ?_⟩
    rintro ⟨raw, _, _, h, -⟩
    rw [hraw] at h
    cases h
  | ok raw =>
    obtain ⟨found, hc, hfound, -⟩ := context_run (n := n) path { w with events, log, sizeFailures, reads }
    dsimp only
    rw [bind_of_ok hc]
    cases found with
    | error e =>
      refine ⟨.error e, es₁, _, rfl, hn₁, .of_aside ha₁ ?_⟩
      rintro ⟨_, record, _, _, h, -⟩
      obtain ⟨_, h⟩ := hfound record h
      cases h
    | ok context =>
      obtain ⟨result, es₂, w₂, hs, hn₂, hes⟩ :=
        start_run (n := n) (d := d) (w := { w with events, log, sizeFailures, reads }) hv raw context
      dsimp only
      rw [bind_of_ok hs]
      have henforced : ∀ final, (∀ e, result = .error e → final = .error (.image e)) →
          Enforced w server path (es₁ ++ es₂) final := by
        intro final hfinal
        cases hsel : Image.Fat.select raw .native with
        | error e =>
          rw [hsel] at hes
          rw [hes.1, List.append_nil]
          refine .of_aside ha₁ ?_
          rintro ⟨raw', _, selection, h, -, hsel'⟩
          rw [hraw] at h
          cases h
          rw [hsel] at hsel'
          cases hsel'
        | ok selection =>
          rw [hsel] at hes
          exact .of_validated ha₁ hraw hsel hes hfinal
      cases result with
      | error e =>
        refine ⟨.error (.image e), es₁ ++ es₂, w₂, rfl, hn₁.trans hn₂, henforced _ fun e' h => ?_⟩
        cases h
        rfl
      | ok exit =>
        obtain ⟨final, log', h, -⟩ := conclude_run (n := n) (d := d) path exit w₂
        refine ⟨final, es₁ ++ es₂, { w₂ with log := log' }, h, hn₁.trans hn₂, henforced _ fun e' h => ?_⟩
        cases h

/-- What is left of a run once its program has ended: to say why it failed. -/
theorem report_run (path : String) (final : Except BootError Exit) (w : World) :
    ∃ w', (match final with
      | .ok exit => (pure (.ok exit) : Sim (Except BootError Exit))
      | .error e => do
        Session.say ⟨machine n, d⟩ ["\nWindows PE network boot [", path, "] failed: ", e.message, "\n"]
        Session.debugDelay ⟨machine n, d⟩ 5
        return .error e) w = .ok final w' ∧ Talk w w' := by
  cases final with
  | ok exit => exact ⟨w, rfl, Talk.ordered.refl w⟩
  | error e =>
    obtain ⟨_, w₁, hs, ht⟩ := Session.talk_say (n := n) (d := d)
      ["\nWindows PE network boot [", path, "] failed: ", e.message, "\n"] w
    obtain ⟨_, w₂, hd, ht'⟩ := Session.talk_debugDelay (n := n) (d := d) 5 w₁
    refine ⟨w₂, ?_, Talk.ordered.trans ht ht'⟩
    dsimp only
    rw [bind_of_ok hs, bind_of_ok hd]
    rfl

/-- A run once the boot server is set: what the operator is told, the program, and why it failed. -/
theorem redirected_run {c : Chainloader} (hv : c.loader.validates w = true) (pieces : List String) (path : String)
    (server : Net.Ipv4) :
    ∃ final es w', (do
        Session.sayDebug ⟨machine n, d⟩ pieces
        Session.debugDelay ⟨machine n, d⟩ 5
        match ← c.fetchAndStart ⟨machine n, d⟩ trapsCell path server with
        | .ok exit => return .ok exit
        | .error e => do
          Session.say ⟨machine n, d⟩ ["\nWindows PE network boot [", path, "] failed: ", e.message, "\n"]
          Session.debugDelay ⟨machine n, d⟩ 5
          return .error e : Sim (Except BootError Exit)) w = .ok final w' ∧ Noted es w w' ∧
      Enforced w server path es final := by
  obtain ⟨_, w₁, hs, ht⟩ := Session.talk_sayDebug (n := n) (d := d) pieces w
  obtain ⟨_, w₂, hd, ht'⟩ := Session.talk_debugDelay (n := n) (d := d) 5 w₁
  have htalk := Talk.ordered.trans ht ht'
  obtain ⟨es, hn, ha⟩ := htalk.2
  obtain ⟨final, es', w₃, hf, hn', he⟩ :=
    fetchAndStart_run (n := n) (d := d) (c := c) ((validates_of_talk htalk _).trans hv) path server
  obtain ⟨w₄, hr, -, es'', hn'', ha''⟩ := report_run (n := n) (d := d) path final w₃
  refine ⟨final, es ++ (es' ++ es''), w₄, ?_, hn.trans (hn'.trans hn''), he.around htalk ha ha''⟩
  rw [bind_of_ok hs, bind_of_ok hd, bind_of_ok hf]
  exact hr

/-- A run stops before it fetches anything, or is the run of a boot program. -/
theorem run_cases {c : Chainloader} (hv : c.loader.validates w = true) (name : String) (server : Net.Ipv4) :
    (∃ final es w', c.run ⟨machine n, d⟩ trapsCell name server w = .ok final w' ∧ Noted es w w' ∧
      (∀ e ∈ es, e.isAside = true) ∧
      ¬(w.pxeMode.isNetboot = true ∧ server.isUnspecified = false ∧
        w.pxeMode.contains .dhcpAckReceived = true)) ∨
    ∃ final es w', c.run ⟨machine n, d⟩ trapsCell name server w = .ok final w' ∧ Noted es w w' ∧
      Enforced w server (bootFilePath name) es final := by
  unfold run Journal.error
  rw [machine_toJournal, machine_redirectBoot, bind_of_ok (pxeMode_run n w)]
  cases hnet : w.pxeMode.isNetboot with
  | false =>
    rw [if_pos Bool.not_false]
    obtain ⟨log, h⟩ := Silent.bind_run (Silent.note _) _ w
    exact Or.inl ⟨_, [], _, h, .nil rfl, fun _ he => (nomatch he), fun hc => (nomatch hc.1)⟩
  | true =>
    rw [if_neg (by decide)]
    cases hu : server.isUnspecified with
    | true =>
      rw [if_pos rfl]
      exact Or.inl ⟨_, [], w, rfl, .nil rfl, fun _ he => (nomatch he), fun hc => (nomatch hc.2.1)⟩
    | false =>
      rw [if_neg Bool.false_ne_true]
      obtain ⟨r, events, redirects, pxeMode, hr, hiff, hn⟩ := redirectBoot_run name server w
      have ha : ∀ e ∈ [Event.redirect name server r], e.isAside = true := fun e he => List.mem_singleton.mp he ▸ rfl
      rw [bind_of_ok hr]
      cases r with
      | error e =>
        refine Or.inl ⟨_, _, _, rfl, hn, ha, fun hc => ?_⟩
        cases hiff.mpr hc.2.2
      | ok u =>
        have htalk : Talk w { w with events, redirects, pxeMode } := ⟨⟨_, _, _, _, _, _, rfl⟩, _, hn, ha⟩
        obtain ⟨final, es, w', hrun, hn', he⟩ := redirected_run (n := n) (d := d) ((validates_of_talk htalk _).trans hv)
          ["BootFileName changed to: ", name, "\nBootServer-IP changed to: ", server.text, "\n"] (bootFilePath name) server
        refine Or.inr ⟨final, _, w', hrun, hn.trans hn', ?_⟩
        have haround := he.around htalk ha (fun _ h => absurd h List.not_mem_nil)
        rwa [List.append_nil] at haround

/-- Where signatures are enforced, a run of a boot program has a result and keeps to it: no pages are
    taken and no entry point is called, the firmware is handed only the boot part that the verifier
    accepted before, and starts only what it made of that. If the verifier does not accept, the
    firmware is handed nothing, and the run fails for that reason unless it fails before. -/
theorem run_enforces {c : Chainloader} (h : c.alwaysValidate = true ∨
      w.nvram.find? "SecureBoot" = some #[1] ∧ w.nvram.find? "SetupMode" ≠ some #[1])
    (name : String) (server : Net.Ipv4) :
    ∃ final es w', c.run ⟨machine n, d⟩ trapsCell name server w = .ok final w' ∧ Noted es w w' ∧
      Lawful (IsBootPart w server (bootFilePath name)) es ∧
      (w.answer ≠ some .success → ∀ e ∈ es, isHandover e = false) ∧
      ∀ raw record selection wf,
        w.pxeMode.isNetboot = true → server.isUnspecified = false → w.pxeMode.contains .dhcpAckReceived = true →
        Transfer.fetch (machine n).toNetwork server (bootFilePath name) w = .ok (.ok raw) wf →
        w.recordOf ownHandle = .ok record → Image.Fat.select raw .native = .ok selection →
        (w.answer = none → final = .error (.image .validatorUnavailable)) ∧
        ∀ status, w.answer = some status → status ≠ .success → final = .error (.image .signatureInvalid) := by
  have hv : c.loader.validates w = true := by
    rw [Image.Loader.validates, Bool.or_eq_true, Image.Secure.enforced_iff]
    exact h
  rcases run_cases (n := n) (d := d) hv name server with
    ⟨final, es, w', hr, hn, ha, hstop⟩ | ⟨final, es, w', hr, hn, he⟩
  · refine ⟨final, es, w', hr, hn, .of_aside ha, fun _ e he => isHandover_of_aside (ha e he), ?_⟩
    intro raw record selection wf h1 h2 h3
    exact absurd ⟨h1, h2, h3⟩ hstop
  · refine ⟨final, es, w', hr, hn, he.lawful, he.no_handover, ?_⟩
    intro raw record selection wf _ _ _ hf hrec hsel
    obtain ⟨w₁, hf', -⟩ := Transfer.fetch_run (n := n) server (bootFilePath name) w
    rw [hf] at hf'
    have hraw : w.fetched server (bootFilePath name) = .ok raw := by
      injection hf' with hraw
      exact hraw.symm
    have hready : Ready w server (bootFilePath name) := ⟨raw, record, selection, hraw, hrec, hsel⟩
    exact ⟨fun ha => he.unavailable ha hready, fun status ha hne => he.rejected status ha hne hready⟩

/-- Under Secure Boot and without a verifier, a file that can be fetched is refused for that reason. -/
theorem run_without_verifier :
    ∃ w', run {} ⟨machine 0, false⟩ trapsCell "b" ⟨10, 0, 0, 1⟩
        { nvram := .ofList [("SecureBoot", #[1])], files := [((⟨10, 0, 0, 1⟩, "/b"), #[0x4d])] } =
      .ok (.error (.image .validatorUnavailable)) w' := by
  obtain ⟨final, es, w', hr, -, -, -, hfinal⟩ := run_enforces (n := 0) (d := false) (c := {})
    (w := { nvram := .ofList [("SecureBoot", #[1])], files := [((⟨10, 0, 0, 1⟩, "/b"), #[0x4d])] })
    (Or.inr ⟨by decide, by decide⟩) "b" ⟨10, 0, 0, 1⟩
  have hpath : bootFilePath "b" = "/b" := by decide
  rw [hpath] at hfinal
  have hf := (hfinal #[0x4d] ownRecord .whole _ (by decide) (by decide) (by decide) rfl rfl rfl).1 rfl
  rw [hf] at hr
  exact ⟨w', hr⟩

end Chainloader

end NetBoot.Boot
