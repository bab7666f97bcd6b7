/-
  NetBoot.Proofs.Uefi.Dns — a lookup gives back what it takes, whatever the firmware answers.

  A lookup takes a child, on it an event, and with that a request, and each of the three goes in the
  opposite order. Along the calls that it makes the account of what it holds says so (`Bracketed`): at no
  moment is a request held without an event, or an event without a child, none is held twice, and in the
  end none is held at all. A request is held if it will not come to its end in time; that is the one that
  has to be cancelled.

  Each layer puts a bracket around the calls of the one inside (`Bracketed.wrap`), so the exits of a layer
  do not multiply with those of the others: `request_calls`, `withEvent_calls`, `onChild_calls` and
  `lookUp_calls` each have their own, and what a lookup comes to (`Settled`) is found by the request and
  passed on.
-/

import NetBoot.Proofs.Uefi.Run
import NetBoot.Uefi.Dns

namespace NetBoot.Uefi.Dns

/-! ## The account of what is held -/

/-- The sum over these calls: if each takes or gives back so many, how many are held after them. -/
def net (δ : Event → Int) : List Event → Int
  | [] => 0
  | e :: calls => δ e + net δ calls

@[simp] theorem net_nil (δ : Event → Int) : net δ [] = 0 := rfl

@[simp] theorem net_cons (δ : Event → Int) (e : Event) (l : List Event) : net δ (e :: l) = δ e + net δ l := rfl

@[simp] theorem net_append (δ : Event → Int) (l l' : List Event) : net δ (l ++ l') = net δ l + net δ l' := by
  induction l with
  | nil => simp
  | cons e l ih => simp [ih, Int.add_assoc]

theorem net_replicate (δ : Event → Int) (n : Nat) (e : Event) : net δ (List.replicate n e) = n * δ e := by
  induction n with
  | zero => simp
  | succ n ih => rw [List.replicate_succ, net_cons, ih, Int.natCast_succ, Int.add_mul, Int.one_mul, Int.add_comm]

theorem net_eq_zero {δ : Event → Int} {l : List Event} (h : ∀ e ∈ l, δ e = 0) : net δ l = 0 := by
  induction l with
  | nil => rfl
  | cons e l ih =>
    obtain ⟨he, hl⟩ := List.forall_mem_cons.mp h
    rw [net_cons, he, ih hl, Int.zero_add]

/-- At every moment the inner one is held only while the outer one is, which is held at most once, and after
    the last call the outer one is not held any more. -/
structure Bracketed (inner outer : Event → Int) (calls : List Event) : Prop where
  held : ∀ p, p <+: calls → 0 ≤ net inner p ∧ net inner p ≤ net outer p ∧ net outer p ≤ 1
  released : net outer calls = 0

namespace Bracketed

variable {inner outer : Event → Int} {l l' : List Event} {a b : Event}

theorem inner_released (h : Bracketed inner outer l) : net inner l = 0 := by
  obtain ⟨hlow, hhigh, -⟩ := h.held l List.prefix_rfl
  have := h.released
  omega

theorem of_zero (hi : ∀ e ∈ l, inner e = 0) (ho : ∀ e ∈ l, outer e = 0) : Bracketed inner outer l where
  held p hp := by
    rw [net_eq_zero fun e he => hi e (hp.subset he), net_eq_zero fun e he => ho e (hp.subset he)]
    decide
  released := net_eq_zero ho

theorem nil : Bracketed inner outer [] := of_zero (List.forall_mem_nil _) (List.forall_mem_nil _)

theorem append (h : Bracketed inner outer l) (h' : Bracketed inner outer l') : Bracketed inner outer (l ++ l') where
  held p hp := by
    rcases List.prefix_or_prefix_of_prefix hp (List.prefix_append l l') with hp' | ⟨q, rfl⟩
    · exact h.held p hp'
    · have hq := h'.held q ((List.prefix_append_right_inj l).mp hp)
      rw [net_append, net_append, h.inner_released, h.released, Int.zero_add, Int.zero_add]
      exact hq
  released := by rw [net_append, h.released, h'.released, Int.add_zero]

/-- The outer one is taken, the inner one is taken and given back, and the outer one is given back. -/
theorem wrap {innermost : Event → Int} (h : Bracketed innermost inner l) (ho : ∀ e ∈ l, outer e = 0)
    (hia : inner a = 0) (hoa : outer a = 1) (hib : inner b = 0) (hob : outer b = -1) :
    Bracketed inner outer ([a] ++ (l ++ [b])) where
  held p hp := by
    -- nothing yet, all of it, or the outer one taken and some of the calls inside
    rw [List.singleton_append] at hp
    rcases List.prefix_cons_iff.mp hp with rfl | ⟨t, rfl, ht⟩
    · simp
    rcases List.prefix_concat_iff.mp ht with rfl | ht
    · have hinner := h.released
      have houter := net_eq_zero ho
      simp only [net_cons, net_append, net_nil]
      omega
    · obtain ⟨hlow, hle, hhigh⟩ := h.held t ht
      have houter := net_eq_zero fun e he => ho e (ht.subset he)
      simp only [net_cons]
      omega
  released := by
    have houter := net_eq_zero ho
    simp only [net_append, net_cons, net_nil]
    omega

end Bracketed

section Account

variable (s : DnsScript) (opening : Status)

/-- Will the request that is started be pending until it is given up? Whether it would end after that, or never,
    makes no difference. -/
def Overdue : Prop := s.start.isError = false ∧ maxPolls < s.polls

instance : Decidable (Overdue s) := inferInstanceAs (Decidable (_ ∧ _))

/-- A child is taken when the firmware has created it, and given back when it is destroyed. -/
def childTaken : Event → Int
  | .createChild => if s.create.isError then 0 else 1
  | .destroyChild _ => -1
  | _ => 0

def eventTaken : Event → Int
  | .createEvent => if opening.isError then 0 else 1
  | .closeEvent => -1
  | _ => 0

/-- A request that does not come to its end is given back when it is cancelled. -/
def requestTaken : Event → Int
  | .lookUp _ => if Overdue s then 1 else 0
  | .cancel => -1
  | _ => 0

end Account

/-- A lookup with these calls gives back all that it takes. -/
structure GivesBack (s : DnsScript) (opening : Status) (calls : List Event) : Prop where
  request : Bracketed (requestTaken s) (eventTaken opening) calls
  event : Bracketed (eventTaken opening) (childTaken s) calls
  own : ∀ child, .destroyChild child ∈ calls → child = dnsChild

/-! ## What a lookup comes to -/

/-- The microseconds that a call waits. -/
def waited : Event → Int
  | .stall microseconds _ => microseconds
  | _ => 0

/-- The buffer of the firmware that a call gives back. -/
def freed? : Event → Option Nat
  | .freePool (.numbered n) => some n
  | _ => none

/-- A request has been made. -/
def Asked (calls : List Event) : Prop := ∃ name, .lookUp name ∈ calls

/-- The request has come to its end before it was given up. -/
def Completed (s : DnsScript) (calls : List Event) : Prop :=
  Asked calls ∧ s.start.isError = false ∧ s.polls ≤ maxPolls

/-- The addresses that an answer claims to have. -/
def claimed (s : DnsScript) (addresses : List Net.Ipv4) : Nat := s.count.getD addresses.length

/-- How many buffers the firmware makes for an answer: one for itself, and one for its list. -/
def buffersOf (s : DnsScript) : Nat := (s.answer.map fun _ => if s.nullList then 1 else 2).getD 0

/-- What a lookup comes to that makes these calls between two worlds. The buffers that the firmware makes
    meanwhile are those of the answer. -/
structure Settled (s : DnsScript) (w w' : World) (calls : List Event) (result : Except ServiceError Net.Ipv4) :
    Prop where
  waits : net waited calls ≤ 5000 * 1000
  polled : w'.polls ≤ w.polls + 500
  configured : .configure ∈ calls → s.configure = .noMapping → result = .error .notReady
  started : Asked calls → s.start = .noMapping → result = .error .notReady
  ended : Completed s calls → s.token = .noMapping → result = .error .notReady
  /-- The firmware makes an answer when it takes the request, and the request comes to its end with it. -/
  made : Completed s calls → w'.buffers = w.buffers + buffersOf s
  freed : Completed s calls → s.token.isError = false →
    calls.filterMap freed? = List.range' w.buffers (w'.buffers - w.buffers)
  /-- Of a request that has come to no answer nothing is freed. -/
  kept : ¬(Completed s calls ∧ s.token.isError = false) → calls.filterMap freed? = []
  /-- The list has as many addresses as the answer claims, if the firmware keeps to its word. -/
  address : ∀ ip, result = .ok ip → Completed s calls ∧ s.token.isError = false ∧
    ∃ addresses, s.answer = some addresses ∧ s.nullList = false ∧ 0 < claimed s addresses ∧
      (claimed s addresses ≤ addresses.length → addresses.head? = some ip)
  resolved : Completed s calls → s.token.isError = false → ∀ first rest, s.answer = some (first :: rest) →
    s.nullList = false → 0 < claimed s (first :: rest) → result = .ok first

/-! ## Runs and their calls -/

/-- The computation ends, and has made these calls. -/
structure Calls {α : Type} (x : Uefi α) (w : World) (a : α) (calls : List Event) (w' : World) : Prop where
  run : x w = .ok a w'
  events : w'.events.toList = w.events.toList ++ calls

namespace Calls

variable {α β : Type} {x : Uefi α} {f : α → Uefi β} {w w₁ w₂ : World} {a : α} {b : β} {e : Event}
  {calls calls' : List Event}

theorem bind (hx : Calls x w a calls w₁) (hf : Calls (f a) w₁ b calls' w₂) :
    Calls (x >>= f) w b (calls ++ calls') w₂ :=
  ⟨by rw [bind_of_ok hx.run, hf.run], by rw [hf.events, hx.events, List.append_assoc]⟩

theorem none (hx : x w = .ok a w₁) (he : w₁.events = w.events) : Calls x w a [] w₁ :=
  ⟨hx, by rw [he, List.append_nil]⟩

theorem one (hx : x w = .ok a w₁) (he : w₁.events = w.events.push e) : Calls x w a [e] w₁ :=
  ⟨hx, by rw [he, Array.toList_push]⟩

theorem pure (a : α) : Calls (Pure.pure a) w a [] w := none rfl rfl

/-- A computation that makes no calls of its own stands in front. -/
theorem silent_bind (hx : x w = .ok a w₁) (he : w₁.events = w.events) (hf : Calls (f a) w₁ b calls w₂) :
    Calls (x >>= f) w b calls w₂ :=
  (none hx he).bind hf

/-- A computation that makes no calls of its own stands behind. -/
theorem bind_silent (hx : Calls x w a calls w₁) (hf : f a w₁ = .ok b w₂) (he : w₂.events = w₁.events) :
    Calls (x >>= f) w b calls w₂ := by
  have h := hx.bind (none hf he)
  rwa [List.append_nil] at h

end Calls

theorem check_cases (status : Status) :
    status.isError = false ∧ check status = .ok () ∨
      status.isError = true ∧ ∃ e, check status = .error e ∧ (status = .noMapping → e = .notReady) := by
  by_cases hmapping : status = .noMapping
  · subst hmapping
    exact Or.inr ⟨by decide, .notReady, rfl, fun _ => rfl⟩
  · rw [check, if_neg hmapping, ServiceError.check]
    cases status.isError with
    | false => exact Or.inl ⟨rfl, rfl⟩
    | true => exact Or.inr ⟨rfl, _, rfl, fun h => absurd h hmapping⟩

theorem not_noMapping {status : Status} (h : status.isError = false) : status ≠ .noMapping := by
  rintro rfl
  exact absurd h (by decide)

theorem serviceCheck_cases (status : Status) :
    status.isError = false ∧ ServiceError.check status = .ok () ∨
      status.isError = true ∧ ∃ e, ServiceError.check status = .error e := by
  rw [ServiceError.check]
  cases status.isError with
  | false => exact Or.inl ⟨rfl, rfl⟩
  | true => exact Or.inr ⟨rfl, _, rfl⟩

theorem logIn_calls (r : Log.Record) (w : World) :
    ∃ w', Calls (logIn r) w () [] w' ∧ w'.buffers = w.buffers ∧ w'.polls = w.polls := by
  refine ⟨_, .none rfl ?_, ?_, ?_⟩ <;> dsimp only <;> split <;> rfl

/-- A run that may log a record before it returns. -/
theorem logIf_calls {α : Type} (b : Bool) (r : Log.Record) (a : α) (w : World) :
    ∃ w', Calls (do
        if b then logIn r
        return a : Uefi α) w a [] w' ∧ w'.buffers = w.buffers ∧ w'.polls = w.polls := by
  cases b with
  | true =>
    obtain ⟨w', hlogged, hbuffers, hpolls⟩ := logIn_calls r w
    exact ⟨w', hlogged.bind (.pure a), hbuffers, hpolls⟩
  | false => exact ⟨w, .pure a, rfl, rfl⟩

theorem freeBuffer_calls (n : Nat) (w : World) :
    ∃ w', Calls (freeBuffer n) w () [.freePool (.numbered n)] w' ∧ w'.buffers = w.buffers ∧ w'.polls = w.polls := by
  have hfree : Calls (Services.freePool (.numbered n)) w (w.forced.freePool.getD .success)
      [.freePool (.numbered n)] (w.noting (.freePool (.numbered n))) := .one rfl rfl
  obtain ⟨w', hlogged, hbuffers, hpolls⟩ :=
    logIf_calls (w.forced.freePool.getD .success).isError _ () (w.noting (.freePool (.numbered n)))
  exact ⟨w', hfree.bind hlogged, hbuffers, hpolls⟩

/-! ## Waiting -/

/-- One wait between two checks. -/
def wait : Event := .stall 10000 1

/-- Waiting does nothing to the answer. -/
structure Undisturbed (w w' : World) : Prop where
  token : w'.lookup.token = w.lookup.token
  answer : w'.answer = w.answer
  buffers : w'.buffers = w.buffers

theorem checkEvent_done (h : w.lookup.polls = 0) : Services.checkEvent w = .ok .success w := by
  rw [Services.checkEvent, get_bind, h]
  rfl

theorem checkEvent_running {m : Nat} (h : w.lookup.polls = m + 1) :
    Services.checkEvent w = .ok .notReady { w with lookup := { w.lookup with polls := m } } := by
  rw [Services.checkEvent, get_bind, h]
  rfl

theorem Undisturbed.trans {w w₁ w₂ : World} (h : Undisturbed w w₁) (h' : Undisturbed w₁ w₂) : Undisturbed w w₂ :=
  ⟨h'.token.trans h.token, h'.answer.trans h.answer, h'.buffers.trans h.buffers⟩

/-- One round: the check finds the request running, the stack is driven once, and there is one wait. -/
theorem await_round {m : Nat} (h : w.lookup.polls = m + 1) (n : Nat) :
    ∃ w₁, (∀ {done calls w'}, Calls (await n) w₁ done calls w' → Calls (await (n + 1)) w done (wait :: calls) w') ∧
      w₁.lookup.polls = m ∧ w₁.polls = w.polls + 1 ∧ Undisturbed w w₁ := by
  let w₁ : World := { w with lookup := { w.lookup with polls := m }, polls := w.polls + 1 }
  refine ⟨{ w₁.noting wait with ticks := w₁.ticks + pollInterval.toUInt64 }, fun hrest => ?_, rfl, rfl, rfl, rfl, rfl⟩
  have hstall : Calls (Services.stall pollInterval) w₁ () [wait]
      { w₁.noting wait with ticks := w₁.ticks + pollInterval.toUInt64 } := .one rfl rfl
  exact .silent_bind (checkEvent_running h) rfl (.silent_bind rfl rfl (hstall.bind hrest))

/-- A wait goes on until the request has come to its end, but not for more than `n` rounds; then the request
    is cancelled. -/
theorem await_calls (n : Nat) (w : World) :
    ∃ w', Calls (await n) w (decide (w.lookup.polls ≤ n))
        (List.replicate (min w.lookup.polls n) wait ++ if w.lookup.polls ≤ n then [] else [.cancel]) w' ∧
      w'.polls = w.polls + min w.lookup.polls n ∧ Undisturbed w w' := by
  induction n generalizing w with
  | zero =>
    cases hpolls : w.lookup.polls with
    | zero =>
      exact ⟨w, .silent_bind (checkEvent_done hpolls) rfl (.pure true), rfl, rfl, rfl, rfl⟩
    | succ m =>
      have hcancel : Calls Services.cancel { w with lookup := { w.lookup with polls := m } } () [.cancel] _ :=
        .one rfl rfl
      exact ⟨_, .silent_bind (checkEvent_running hpolls) rfl (hcancel.bind (.pure false)), rfl, rfl, rfl, rfl⟩
  | succ n ih =>
    cases hpolls : w.lookup.polls with
    | zero =>
      refine ⟨w, .silent_bind (checkEvent_done hpolls) rfl (.pure true), ?_, rfl, rfl, rfl⟩
      simp
    | succ m =>
      obtain ⟨w₁, hround, hleft, hdriven, hsame⟩ := await_round hpolls n
      obtain ⟨w', hrest, hcount, hsame'⟩ := ih w₁
      rw [hleft] at hrest hcount
      refine ⟨w', ?_, by omega, hsame.trans hsame'⟩
      have hrun := hround hrest
      rw [Nat.add_min_add_right, List.replicate_succ]
      simp only [Nat.add_le_add_iff_right]
      exact hrun

/-! ## One request -/

/-- The answer as the firmware makes it when it has made so many buffers before: first the list. -/
def answerAt (s : DnsScript) (first : Nat) (addresses : List Net.Ipv4) : DnsAnswer where
  buffer := if s.nullList then first else first + 1
  count := claimed s addresses
  list := if s.nullList then none else some (first, addresses)

/-- The call that starts a request for a name, as the firmware sees it. -/
def asking (name : String) : Event := .lookUp (String.ofList (Text.Ucs2.decode (Text.Ucs2.encode name.toList)))

theorem makeAnswer_run (s : DnsScript) (addresses : List Net.Ipv4) (w : World) :
    Services.makeAnswer s addresses w = .ok (answerAt s w.buffers addresses)
      { w with buffers := w.buffers + if s.nullList then 1 else 2 } := by
  rw [Services.makeAnswer, answerAt]
  cases s.nullList <;> rfl

theorem hostNameToIp_refused (name : String) (h : w.lookup.start.isError = true) :
    Calls (Services.hostNameToIp name) w w.lookup.start [asking name] (w.noting (asking name)) := by
  refine .one ?_ rfl
  rw [Services.hostNameToIp, bind_of_ok (x := see _) rfl, get_bind]
  rw [show (w.noting _).lookup = w.lookup from rfl, h]
  rfl

theorem hostNameToIp_taken (name : String) (h : w.lookup.start.isError = false) (hanswer : w.answer = none) :
    ∃ w', Calls (Services.hostNameToIp name) w w.lookup.start [asking name] w' ∧ w'.polls = w.polls ∧
      w'.lookup = w.lookup ∧ w'.buffers = w.buffers + buffersOf w.lookup ∧
      w'.answer = w.lookup.answer.map (answerAt w.lookup w.buffers) := by
  cases hs : w.lookup.answer with
  | none =>
    have hrun : Services.hostNameToIp name w = .ok w.lookup.start (w.noting (asking name)) := by
      rw [Services.hostNameToIp, bind_of_ok (x := see _) rfl, get_bind]
      rw [show (w.noting _).lookup = w.lookup from rfl, h, hs]
      rfl
    refine ⟨_, .one hrun rfl, rfl, rfl, ?_, hanswer⟩
    rw [buffersOf, hs]
    rfl
  | some addresses =>
    have hrun : Services.hostNameToIp name w = .ok w.lookup.start { w.noting (asking name) with
        buffers := w.buffers + if w.lookup.nullList then 1 else 2,
        answer := some (answerAt w.lookup w.buffers addresses) } := by
      rw [Services.hostNameToIp, bind_of_ok (x := see _) rfl, get_bind]
      rw [show (w.noting _).lookup = w.lookup from rfl, h, hs]
      show (Services.makeAnswer w.lookup addresses >>= _) _ = _
      rw [bind_of_ok (makeAnswer_run _ _ _)]
      rfl
    refine ⟨_, .one hrun rfl, rfl, rfl, ?_, rfl⟩
    rw [buffersOf, hs]
    rfl

/-- What is taken from an answer. -/
def firstAddress (s : DnsScript) : Except ServiceError Net.Ipv4 :=
  match s.answer with
  | none => .error .notFound
  | some addresses =>
    if s.nullList = false ∧ 0 < claimed s addresses then .ok (addresses.headD .unspecified) else .error .notFound

theorem firstAddress_eq_ok {s : DnsScript} {ip : Net.Ipv4} (h : firstAddress s = .ok ip) :
    ∃ addresses, s.answer = some addresses ∧ s.nullList = false ∧ 0 < claimed s addresses ∧
      addresses.headD .unspecified = ip := by
  rw [firstAddress] at h
  split at h
  · cases h
  · split at h
    · next addresses hanswer hlist => exact ⟨addresses, hanswer, hlist.1, hlist.2, Except.ok.inj h⟩
    · cases h

/-- The calls that free the buffers of an answer. -/
def freeing (first : Nat) (s : DnsScript) : List Event :=
  (List.range' first (buffersOf s)).map fun n => .freePool (.numbered n)

/-- All buffers of an answer are given back, and its first address is taken from them if it has one. -/
theorem takeAnswer_calls {s : DnsScript} {first : Nat} (h : w.answer = s.answer.map (answerAt s first)) :
    ∃ w', Calls takeAnswer w (firstAddress s) (freeing first s) w' ∧
      w'.polls = w.polls ∧ w'.buffers = w.buffers := by
  rw [takeAnswer, freeing, buffersOf, firstAddress]
  cases hs : s.answer with
  | none =>
    rw [hs] at h
    refine ⟨w, .silent_bind (a := w) rfl rfl ?_, rfl, rfl⟩
    rw [show w.answer = none from h]
    exact .pure _
  | some addresses =>
    rw [hs] at h
    cases hnull : s.nullList with
    | true =>
      obtain ⟨w₁, hfree, hbuffers, hpolls⟩ := freeBuffer_calls first w
      refine ⟨{ w₁ with answer := none }, .silent_bind (a := w) rfl rfl ?_, hpolls, hbuffers⟩
      rw [show w.answer = some (answerAt s first addresses) from h, answerAt, hnull]
      have hclear : (modify fun w => { w with answer := none } : Uefi Unit) w₁ =
          .ok () { w₁ with answer := none } := rfl
      refine hfree.bind (.silent_bind hclear rfl ?_)
      dsimp only
      rw [if_pos rfl, if_neg (fun h => nomatch h.1)]
      cases claimed s addresses <;> exact .pure _
    | false =>
      obtain ⟨w₁, hlist, hbuffers, hpolls⟩ := freeBuffer_calls first w
      obtain ⟨w₂, hbuffer, hbuffers', hpolls'⟩ := freeBuffer_calls (first + 1) w₁
      refine ⟨{ w₂ with answer := none }, .silent_bind (a := w) rfl rfl ?_, hpolls'.trans hpolls,
        hbuffers'.trans hbuffers⟩
      rw [show w.answer = some (answerAt s first addresses) from h, answerAt, hnull]
      have hclear : (modify fun w => { w with answer := none } : Uefi Unit) w₂ =
          .ok () { w₂ with answer := none } := rfl
      refine hlist.bind (hbuffer.bind (.silent_bind hclear rfl ?_))
      dsimp only
      rw [if_neg Bool.false_ne_true]
      cases claimed s addresses with
      | zero =>
        rw [if_neg (fun h => absurd h.2 (Nat.lt_irrefl 0))]
        exact .pure _
      | succ n =>
        rw [if_pos ⟨rfl, Nat.succ_pos n⟩]
        exact .pure _

/-- The calls of one request: it is started, there are so many rounds, and then these calls. -/
def course (name : String) (rounds : Nat) (tail : List Event) : List Event :=
  asking name :: (List.replicate rounds wait ++ tail)

/-- A request makes this call, and no other layer does. -/
def OfRequest : Event → Prop
  | .lookUp _ | .stall _ _ | .cancel | .freePool _ => True
  | _ => False

section Course

variable {s : DnsScript} {opening : Status} {name : String} {rounds : Nat} {tail : List Event} {e : Event}

theorem OfRequest.eventTaken (h : OfRequest e) : eventTaken opening e = 0 := by
  cases e <;> first | rfl | exact h.elim

theorem OfRequest.childTaken (h : OfRequest e) : childTaken s e = 0 := by
  cases e <;> first | rfl | exact h.elim

/-- What holds of the start, of a round and of the calls behind them, holds of all calls of a request. -/
theorem forall_course {P : Event → Prop} (hstart : P (asking name)) (hround : P wait) (h : ∀ e ∈ tail, P e) :
    ∀ e ∈ course name rounds tail, P e := by
  refine List.forall_mem_cons.mpr ⟨hstart, List.forall_mem_append.mpr ⟨fun e he => ?_, h⟩⟩
  rw [List.eq_of_mem_replicate he]
  exact hround

theorem ofRequest_course (h : ∀ e ∈ tail, OfRequest e) : ∀ e ∈ course name rounds tail, OfRequest e :=
  forall_course trivial trivial h

theorem waited_course (h : ∀ e ∈ tail, waited e = 0) : net waited (course name rounds tail) = rounds * 10000 := by
  rw [course, net_cons, net_append, net_replicate, net_eq_zero h, Int.add_zero]
  exact Int.zero_add _

theorem freed_course : (course name rounds tail).filterMap freed? = tail.filterMap freed? := by
  rw [course, List.filterMap_cons_none (by rfl), List.filterMap_append, List.filterMap_replicate_of_none rfl,
    List.nil_append]

theorem asked_course : Asked (course name rounds tail) := ⟨_, List.mem_cons_self⟩

/-- A request that comes to its end is never pending for the account. -/
theorem bracketed_course (hs : ¬Overdue s) (h : ∀ e ∈ tail, requestTaken s e = 0) :
    Bracketed (fun _ => 0) (requestTaken s) (course name rounds tail) :=
  .of_zero (fun _ _ => rfl) (forall_course (if_neg hs) rfl h)

theorem bracketed_course_cancelled (hs : Overdue s) :
    Bracketed (fun _ => 0) (requestTaken s) (course name rounds [.cancel]) := by
  have hwaits : ∀ e ∈ List.replicate rounds wait, requestTaken s e = 0 := fun e he => by
    rw [List.eq_of_mem_replicate he]
    rfl
  have hinner : Bracketed (fun _ => 0) (fun _ => 0) (List.replicate rounds wait) :=
    .of_zero (fun _ _ => rfl) fun _ _ => rfl
  exact hinner.wrap hwaits rfl (if_pos hs) rfl rfl

end Course

/-! ## Failures -/

theorem Settled.failed {s : DnsScript} {w w' : World} {calls : List Event} {e : ServiceError}
    (hwaited : net waited calls ≤ 5000 * 1000) (hpolled : w'.polls ≤ w.polls + 500)
    (hconfigured : .configure ∈ calls → s.configure = .noMapping → e = .notReady)
    (hstarted : Asked calls → s.start = .noMapping → e = .notReady)
    (hended : Completed s calls → s.token.isError = true ∧ (s.token = .noMapping → e = .notReady))
    (hmade : Completed s calls → w'.buffers = w.buffers + buffersOf s) (hfreed : calls.filterMap freed? = []) :
    Settled s w w' calls (.error e) where
  waits := hwaited
  polled := hpolled
  configured h h' := congrArg _ (hconfigured h h')
  started h h' := congrArg _ (hstarted h h')
  ended h h' := congrArg _ ((hended h).2 h')
  made := hmade
  freed h h' := absurd h' (by rw [(hended h).1]; exact Bool.noConfusion)
  kept _ := hfreed
  address _ h := nomatch h
  resolved h h' := absurd h' (by rw [(hended h).1]; exact Bool.noConfusion)

/-- What a request on a child comes to, and its calls. -/
structure Requested (s : DnsScript) (w w' : World) (calls : List Event) (result : Except ServiceError Net.Ipv4) :
    Prop where
  own : ∀ e ∈ calls, OfRequest e
  balanced : Bracketed (fun _ => 0) (requestTaken s) calls
  settled : Settled s w w' calls result

namespace Requested

variable {s : DnsScript} {w' : World} {name : String} {rounds : Nat} {tail : List Event}

theorem configure_not_mem {calls : List Event} (h : ∀ e ∈ calls, OfRequest e) : .configure ∉ calls := fun hc => h _ hc

/-- A request that fails has come to no answer, and frees nothing. -/
theorem failed {e : ServiceError} (hrounds : rounds ≤ 500) (hpolls : w'.polls = w.polls + rounds)
    (htail : ∀ e ∈ tail, OfRequest e ∧ waited e = 0 ∧ freed? e = none)
    (hbalanced : Bracketed (fun _ => 0) (requestTaken s) (course name rounds tail))
    (hstarted : s.start = .noMapping → e = .notReady)
    (hended : s.start.isError = false → s.polls ≤ maxPolls →
      s.token.isError = true ∧ (s.token = .noMapping → e = .notReady) ∧ w'.buffers = w.buffers + buffersOf s) :
    Requested s w w' (course name rounds tail) (.error e) := by
  have hown : ∀ e ∈ course name rounds tail, OfRequest e := ofRequest_course fun e he => (htail e he).1
  refine ⟨hown, hbalanced, .failed ?_ (by omega) (fun h => absurd h (configure_not_mem hown)) (fun _ => hstarted)
    (fun h => ⟨(hended h.2.1 h.2.2).1, (hended h.2.1 h.2.2).2.1⟩) (fun h => (hended h.2.1 h.2.2).2.2) ?_⟩
  · rw [waited_course fun e he => (htail e he).2.1]
    omega
  · rw [freed_course]
    exact List.filterMap_eq_nil_iff.mpr fun e he => (htail e he).2.2

/-- A request that has come to its end frees the buffers of its answer. -/
theorem answered (hstart : s.start.isError = false) (hdue : s.polls ≤ maxPolls) (htoken : s.token.isError = false)
    (hpolls : w'.polls = w.polls + s.polls) (hmade : w'.buffers = w.buffers + buffersOf s) :
    Requested s w w' (course name s.polls (freeing w.buffers s)) (firstAddress s) := by
  have hfrees : ∀ e ∈ freeing w.buffers s, OfRequest e ∧ waited e = 0 ∧ requestTaken s e = 0 := by
    intro e he
    obtain ⟨n, -, rfl⟩ := List.mem_map.mp he
    exact ⟨trivial, rfl, rfl⟩
  have hown : ∀ e ∈ course name s.polls (freeing w.buffers s), OfRequest e :=
    ofRequest_course fun e he => (hfrees e he).1
  have hrounds : s.polls ≤ 500 := hdue
  have hnotDue : ¬Overdue s := fun h => absurd h.2 (Nat.not_lt.mpr hdue)
  have hfreed : (course name s.polls (freeing w.buffers s)).filterMap freed? = List.range' w.buffers (buffersOf s) := by
    rw [freed_course, freeing, List.filterMap_map]
    exact List.filterMap_some
  exact {
    own := hown
    balanced := bracketed_course hnotDue fun e he => (hfrees e he).2.2
    settled := {
      waits := by
        rw [waited_course fun e he => (hfrees e he).2.1]
        omega
      polled := by omega
      configured := fun h => absurd h (configure_not_mem hown)
      started := fun _ h => absurd h (not_noMapping hstart)
      ended := fun _ h => absurd h (not_noMapping htoken)
      made := fun _ => hmade
      freed := fun _ _ => by rw [hfreed, hmade, Nat.add_sub_cancel_left]
      kept := fun h => absurd ⟨⟨asked_course, hstart, hdue⟩, htoken⟩ h
      address := fun ip h => by
        obtain ⟨addresses, hanswer, hlist, hcount, hip⟩ := firstAddress_eq_ok h
        refine ⟨⟨asked_course, hstart, hdue⟩, htoken, addresses, hanswer, hlist, hcount, fun hall => ?_⟩
        cases addresses with
        | nil => exact absurd (Nat.lt_of_lt_of_le hcount hall) (Nat.lt_irrefl 0)
        | cons first rest => exact congrArg some hip
      resolved := fun _ _ first rest hanswer hlist hcount => by
        rw [firstAddress, hanswer]
        exact if_pos ⟨hlist, hcount⟩ } }

end Requested

/-- A request has four ends: it is refused, it is given up, it fails, or it comes to an answer. -/
theorem request_calls (name : String) (hanswer : w.answer = none) :
    ∃ result w' calls, Calls (request name) w result calls w' ∧ Requested w.lookup w w' calls result := by
  rcases check_cases w.lookup.start with ⟨hstart, hok⟩ | ⟨hstart, e, herror, hmapping⟩
  case inr =>
    have hbad : ¬w.lookup.start.isError = false := by rw [hstart]; exact Bool.noConfusion
    refine ⟨.error e, w.noting (asking name), course name 0 [], (hostNameToIp_refused name hstart).bind ?_,
      .failed (by decide) rfl (List.forall_mem_nil _) (bracketed_course (fun h => hbad h.1) (List.forall_mem_nil _))
        hmapping fun h => absurd h hbad⟩
    rw [herror]
    exact .pure _
  obtain ⟨w₁, hask, hdriven, hlookup, hmade, hanswered⟩ := hostNameToIp_taken name hstart hanswer
  obtain ⟨w₂, hawait, hcount, htoken, hsame, hkept⟩ := await_calls maxPolls w₁
  rw [hlookup] at hawait hcount
  have hgood : ¬w.lookup.start = .noMapping := not_noMapping hstart
  by_cases hdue : w.lookup.polls ≤ maxPolls
  case neg =>
    rw [decide_eq_false hdue, if_neg hdue, Nat.min_eq_right (Nat.le_of_not_le hdue)] at hawait
    rw [Nat.min_eq_right (Nat.le_of_not_le hdue)] at hcount
    refine ⟨.error .timeout, w₂, course name maxPolls [.cancel], hask.bind ?_,
      .failed (Nat.le_refl _) (by omega) (fun e he => ?_) (bracketed_course_cancelled ⟨hstart, Nat.lt_of_not_le hdue⟩)
        (fun h => absurd h hgood) fun _ h => absurd h hdue⟩
    · rw [hok]
      exact hawait.bind_silent rfl rfl
    · rw [List.mem_singleton.mp he]
      exact ⟨trivial, rfl, rfl⟩
  rw [decide_eq_true hdue, if_pos hdue, Nat.min_eq_left hdue, List.append_nil] at hawait
  rw [Nat.min_eq_left hdue] at hcount
  have hnotDue : ¬Overdue w.lookup := fun h => absurd h.2 (Nat.not_lt.mpr hdue)
  have hdone : w₂.buffers = w.buffers + buffersOf w.lookup := hkept.trans hmade
  rw [hlookup] at htoken
  rcases check_cases w.lookup.token with ⟨hcame, hokay⟩ | ⟨hlost, e, herror, hmapping⟩
  case inr =>
    refine ⟨.error e, w₂, course name w.lookup.polls [], hask.bind ?_,
      .failed hdue (by omega) (List.forall_mem_nil _) (bracketed_course hnotDue (List.forall_mem_nil _))
        (fun h => absurd h hgood) fun _ _ => ⟨hlost, hmapping, hdone⟩⟩
    rw [hok]
    refine hawait.bind (.silent_bind (a := w₂) rfl rfl ?_)
    rw [htoken, herror]
    exact .pure _
  obtain ⟨w₃, htake, hdriven', hkept'⟩ := takeAnswer_calls (hsame.trans hanswered)
  refine ⟨firstAddress w.lookup, w₃, course name w.lookup.polls (freeing w.buffers w.lookup), hask.bind ?_,
    .answered hstart hdue hcame (by omega) (hkept'.trans hdone)⟩
  rw [hok]
  refine hawait.bind (.silent_bind (a := w₂) rfl rfl ?_)
  rw [htoken, hokay]
  exact htake

/-! ## What stands around a request -/

section Around

variable {s : DnsScript} {opening : Status} {w' w₁ w₂ : World} {e : Event} {front calls back : List Event}
  {result : Except ServiceError Net.Ipv4}

theorem waited_of_not (h : ¬OfRequest e) : waited e = 0 := by
  cases e <;> first | rfl | exact absurd trivial h

theorem freed?_of_not (h : ¬OfRequest e) : freed? e = none := by
  cases e <;> first | rfl | exact absurd trivial h

theorem frees_eq_nil (h : ∀ e ∈ calls, ¬OfRequest e) : calls.filterMap freed? = [] :=
  List.filterMap_eq_nil_iff.mpr fun e he => freed?_of_not (h e he)

theorem not_asked (h : ∀ e ∈ calls, ¬OfRequest e) : ¬Asked calls := fun ⟨_, hname⟩ => h _ hname trivial

theorem asked_around (hf : ∀ e ∈ front, ¬OfRequest e) (hb : ∀ e ∈ back, ¬OfRequest e) :
    Asked (front ++ (calls ++ back)) ↔ Asked calls := by
  constructor
  · rintro ⟨name, hname⟩
    rcases List.mem_append.mp hname with hname | hname
    · exact absurd trivial (hf _ hname)
    rcases List.mem_append.mp hname with hname | hname
    · exact ⟨name, hname⟩
    · exact absurd trivial (hb _ hname)
  · rintro ⟨name, hname⟩
    exact ⟨name, List.mem_append_right _ (List.mem_append_left _ hname)⟩

/-- Without a request the calls come to a failure. -/
theorem Settled.unasked {e : ServiceError} (hcalls : ∀ e ∈ calls, ¬OfRequest e) (hpolls : w'.polls = w.polls)
    (hconfigured : .configure ∈ calls → s.configure = .noMapping → e = .notReady) :
    Settled s w w' calls (.error e) := by
  have hasked := not_asked hcalls
  have hwaits : net waited calls = 0 := net_eq_zero fun e he => waited_of_not (hcalls e he)
  exact .failed (by omega) (by omega) hconfigured (fun h => absurd h hasked) (fun h => absurd h.1 hasked)
    (fun h => absurd h.1 hasked) (frees_eq_nil hcalls)

/-- Calls around those of a request change nothing of what it comes to. -/
theorem Settled.around (h : Settled s w₁ w₂ calls result) (hf : ∀ e ∈ front, ¬OfRequest e)
    (hb : ∀ e ∈ back, ¬OfRequest e) (hconfigured : .configure ∈ front ++ back → s.configure ≠ .noMapping)
    (hpolls : w₁.polls = w.polls) (hbuffers : w₁.buffers = w.buffers) (hpolls' : w'.polls = w₂.polls)
    (hbuffers' : w'.buffers = w₂.buffers) :
    Settled s w w' (front ++ (calls ++ back)) result := by
  have hasked : Asked (front ++ (calls ++ back)) ↔ Asked calls := asked_around hf hb
  have hcompleted : Completed s (front ++ (calls ++ back)) ↔ Completed s calls := and_congr_left fun _ => hasked
  have hwaits : net waited (front ++ (calls ++ back)) = net waited calls := by
    rw [net_append, net_append, net_eq_zero fun e he => waited_of_not (hf e he),
      net_eq_zero fun e he => waited_of_not (hb e he), Int.zero_add, Int.add_zero]
  have hfrees : (front ++ (calls ++ back)).filterMap freed? = calls.filterMap freed? := by
    rw [List.filterMap_append, List.filterMap_append, frees_eq_nil hf, frees_eq_nil hb, List.nil_append,
      List.append_nil]
  exact {
    waits := hwaits ▸ h.waits
    polled := by
      have := h.polled
      omega
    configured := fun hmem hc => by
      have hnew : .configure ∉ front ++ back := fun h => hconfigured h hc
      simp only [List.mem_append, not_or] at hmem hnew
      exact h.configured ((hmem.resolve_left hnew.1).resolve_right hnew.2) hc
    started := fun ha => h.started (hasked.mp ha)
    ended := fun hc => h.ended (hcompleted.mp hc)
    made := fun hc => by rw [hbuffers', h.made (hcompleted.mp hc), hbuffers]
    freed := fun hc ht => by rw [hfrees, hbuffers', ← hbuffers, h.freed (hcompleted.mp hc) ht]
    kept := fun hc => by rw [hfrees, h.kept (by rwa [hcompleted] at hc)]
    address := fun ip hip => by rw [hcompleted]; exact h.address ip hip
    resolved := fun hc => h.resolved (hcompleted.mp hc) }

end Around

/-! ## The layers -/

/-- What comes of an event on a child that is there, and the calls. -/
structure OnChild (s : DnsScript) (opening : Status) (w w' : World) (calls : List Event)
    (result : Except ServiceError Net.Ipv4) : Prop where
  child : ∀ e ∈ calls, childTaken s e = 0
  balanced : Bracketed (requestTaken s) (eventTaken opening) calls
  settled : Settled s w w' calls result

/-- An event that cannot be made is not closed, and one that has been made is. -/
theorem withEvent_calls (name : String) (hanswer : w.answer = none) :
    ∃ result w' calls, Calls (withEvent name) w result calls w' ∧
      OnChild w.lookup (w.forced.createEvent.getD .success) w w' calls result := by
  have hopen : Calls Services.createEvent w (w.forced.createEvent.getD .success) [.createEvent]
      (w.noting .createEvent) := .one rfl rfl
  rcases serviceCheck_cases (w.forced.createEvent.getD .success) with ⟨hopened, hok⟩ | ⟨hfailed, e, herror⟩
  case inr =>
    have htaken : eventTaken (w.forced.createEvent.getD .success) .createEvent = 0 := if_pos hfailed
    refine ⟨.error e, w.noting .createEvent, [.createEvent], hopen.bind ?_, by simp [childTaken],
      .of_zero (by simp [requestTaken]) (by simpa using htaken),
      .unasked (by simp [OfRequest]) rfl (by simp)⟩
    rw [herror]
    exact .pure _
  have htaken : eventTaken (w.forced.createEvent.getD .success) .createEvent = 1 := by
    rw [eventTaken, hopened]
    rfl
  obtain ⟨result, w₁, calls, hrequest, hdone⟩ := request_calls (w := w.noting .createEvent) name hanswer
  have hclose : Calls Services.closeEvent w₁ () [.closeEvent] (w₁.noting .closeEvent) := .one rfl rfl
  have hchild : ∀ e ∈ calls ++ [.closeEvent], childTaken w.lookup e = 0 :=
    List.forall_mem_append.mpr ⟨fun e he => (hdone.own e he).childTaken, by simp [childTaken]⟩
  refine ⟨result, w₁.noting .closeEvent, [.createEvent] ++ (calls ++ [.closeEvent]), hopen.bind ?_,
    List.forall_mem_append.mpr ⟨by simp [childTaken], hchild⟩,
    hdone.balanced.wrap (fun e he => (hdone.own e he).eventTaken) rfl htaken rfl rfl,
    hdone.settled.around (by simp [OfRequest]) (by simp [OfRequest]) (by simp) rfl rfl rfl rfl⟩
  rw [hok]
  exact hrequest.bind (hclose.bind_silent rfl rfl)

theorem onChild_calls (name : String) (hanswer : w.answer = none) :
    ∃ result w' calls, Calls (onChild name) w result calls w' ∧
      OnChild w.lookup (w.forced.createEvent.getD .success) w w' calls result := by
  have hhandle : Services.handleProtocol .dns dnsChild w =
      .ok (Services.lookUp w .dns (Services.onHandle w .dns dnsChild) .unsupported) w := rfl
  cases hdns : Services.lookUp w .dns (Services.onHandle w .dns dnsChild) .unsupported with
  | error status =>
    rw [hdns] at hhandle
    exact ⟨_, w, [], .silent_bind hhandle rfl (.pure _), List.forall_mem_nil _,
      .nil, .unasked (List.forall_mem_nil _) rfl nofun⟩
  | ok =>
    rw [hdns] at hhandle
    have hconf : Calls Services.configure w w.lookup.configure [.configure] (w.noting .configure) := .one rfl rfl
    rcases check_cases w.lookup.configure with ⟨hconfigured, hok⟩ | ⟨hfailed, e, herror, hmapping⟩
    case inr =>
      refine ⟨.error e, w.noting .configure, [.configure], .silent_bind hhandle rfl (hconf.bind ?_),
        by simp [childTaken], .of_zero (by simp [requestTaken]) (by simp [eventTaken]),
        .unasked (by simp [OfRequest]) rfl fun _ => hmapping⟩
      rw [herror]
      exact .pure _
    have hmapped := not_noMapping hconfigured
    obtain ⟨result, w₁, calls, hevent, hdone⟩ := withEvent_calls (w := w.noting .configure) name hanswer
    refine ⟨result, w₁, [.configure] ++ (calls ++ []), .silent_bind hhandle rfl (hconf.bind ?_), ?_,
      .append (.of_zero (by simp [requestTaken]) (by simp [eventTaken])) ?_,
      hdone.settled.around (by simp [OfRequest]) (List.forall_mem_nil _) (fun _ => hmapped) rfl rfl rfl rfl⟩
    · rw [hok, List.append_nil]
      exact hevent
    · rw [List.append_nil]
      exact List.forall_mem_cons.mpr ⟨rfl, hdone.child⟩
    · rw [List.append_nil]
      exact hdone.balanced

/-- A child that cannot be made is not destroyed, and one that has been made is. -/
theorem lookUp_calls (name : String) (w : World) :
    ∃ result w' calls, Calls (lookUp name) w result calls w' ∧
      GivesBack (w.lookups.headD {}) (w.forced.createEvent.getD .success) calls ∧
      Settled (w.lookups.headD {}) w w' calls result := by
  let w₁ : World :=
    { w.noting .createChild with lookups := w.lookups.tail, lookup := w.lookups.headD {}, answer := none }
  have hcreate : Calls Services.createChild w (w.lookups.headD {}).create [.createChild] w₁ := .one rfl rfl
  rcases serviceCheck_cases (w.lookups.headD {}).create with ⟨hcreated, hok⟩ | ⟨hfailed, e, herror⟩
  case inr =>
    have htaken : childTaken (w.lookups.headD {}) .createChild = 0 := if_pos hfailed
    refine ⟨.error e, w₁, [.createChild], hcreate.bind ?_,
      ⟨.of_zero (by simp [requestTaken]) (by simp [eventTaken]),
        .of_zero (by simp [eventTaken]) (by simpa using htaken), by simp⟩,
      .unasked (by simp [OfRequest]) rfl (by simp)⟩
    rw [herror]
    exact .pure _
  have htaken : childTaken (w.lookups.headD {}) .createChild = 1 := by
    rw [childTaken, hcreated]
    rfl
  obtain ⟨result, w₂, calls, hchild, hdone⟩ := onChild_calls (w := w₁) name rfl
  have hdestroy : Calls Services.destroyChild w₂ w₂.lookup.destroy [.destroyChild dnsChild]
      (w₂.noting (.destroyChild dnsChild)) := .one rfl rfl
  obtain ⟨w', hlogged, hbuffers, hpolls⟩ :=
    logIf_calls w₂.lookup.destroy.isError _ result (w₂.noting (.destroyChild dnsChild))
  refine ⟨result, w', [.createChild] ++ (calls ++ [.destroyChild dnsChild]), hcreate.bind ?_, ⟨?_, ?_, ?_⟩,
    hdone.settled.around (by simp [OfRequest]) (by simp [OfRequest]) (by simp) rfl rfl hpolls hbuffers⟩
  · rw [hok]
    exact hchild.bind (hdestroy.bind hlogged)
  · have hfront : Bracketed (requestTaken (w.lookups.headD {})) (eventTaken (w.forced.createEvent.getD .success))
        [.createChild] := .of_zero (by simp [requestTaken]) (by simp [eventTaken])
    have hback : Bracketed (requestTaken (w.lookups.headD {})) (eventTaken (w.forced.createEvent.getD .success))
        [.destroyChild dnsChild] := .of_zero (by simp [requestTaken]) (by simp [eventTaken])
    exact hfront.append (hdone.balanced.append hback)
  · exact hdone.balanced.wrap hdone.child rfl htaken rfl rfl
  · intro child hchild
    rcases List.mem_append.mp hchild with hchild | hchild
    · cases List.mem_singleton.mp hchild
    rcases List.mem_append.mp hchild with hchild | hchild
    · have hzero : (-1 : Int) = 0 := hdone.child _ hchild
      omega
    · exact Event.destroyChild.inj (List.mem_singleton.mp hchild)

/-- The binding is looked for without a call that leaves a trace. -/
theorem hasBinding_run (device : Handle) (w : World) : ∃ found, hasBinding device w = .ok found w := by
  have hhandle : Services.handleProtocol .dnsServiceBinding device w =
      .ok (Services.lookUp w .dnsServiceBinding (Services.onHandle w .dnsServiceBinding device) .unsupported) w := rfl
  rw [hasBinding]
  by_cases hnull : device.isNull = true
  · rw [hnull]
    exact ⟨_, rfl⟩
  · rw [if_pos (by simpa using hnull), bind_of_ok hhandle]
    split
    · exact ⟨true, rfl⟩
    · exact ⟨_, rfl⟩

/-- One lookup gives back what it takes, whatever the firmware answers and wherever it stops. It waits five
    seconds at most, with 500 rounds at most; without an address in the network stack it says that the stack
    is not ready; the buffers of an answer that has come are freed, each once; and an address that it returns
    is the first of an answer that has one, which it does return if there is one. -/
theorem resolveHost_gives_back (w : World) (device : Handle) (name : String) :
    ∃ result w' calls, resolveHost device name w = .ok result w' ∧ w'.events.toList = w.events.toList ++ calls ∧
      GivesBack (w.lookups.headD {}) (w.forced.createEvent.getD .success) calls ∧
      Settled (w.lookups.headD {}) w w' calls result := by
  obtain ⟨found, hfound⟩ := hasBinding_run device w
  rw [resolveHost, bind_of_ok hfound]
  cases found with
  | false =>
    exact ⟨_, w, [], rfl, (List.append_nil _).symm,
      ⟨.nil, .nil, nofun⟩, .unasked (List.forall_mem_nil _) rfl nofun⟩
  | true =>
    obtain ⟨result, w', calls, hlookup, hback, hdone⟩ := lookUp_calls name w
    exact ⟨result, w', calls, hlookup.run, hlookup.events, hback, hdone⟩

/-- The pool takes nothing back, and the child cannot be destroyed: the answer is returned all the same, and no
    buffer is freed again. -/
theorem resolveHost_gives_back_refused :
    let host : Net.Ipv4 := ⟨10, 0, 0, 7⟩
    let s : DnsScript := { polls := 2, destroy := .deviceError, answer := some [host, ⟨10, 0, 0, 8⟩] }
    let w : World := { dnsBinding := .device, lookups := [s], forced := { freePool := some .notFound } }
    ∃ w' calls, resolveHost bootDevice "boot" w = .ok (.ok host) w' ∧ GivesBack s .success calls ∧
      net waited calls = 20000 ∧ calls.filterMap freed? = [0, 1] := by
  intro host s w
  obtain ⟨result, w', calls, hrun, hevents, hback, -⟩ := resolveHost_gives_back w bootDevice "boot"
  have hseen : (match resolveHost bootDevice "boot" w with
      | .ok a v => some (a.toOption, net waited v.events.toList, v.events.toList.filterMap freed?)
      | .error _ _ => none) = some (some host, 20000, [0, 1]) := by decide +kernel
  rw [hrun] at hseen
  simp only [Option.some.injEq, Prod.mk.injEq] at hseen
  obtain ⟨hresult, hwaits, hfrees⟩ := hseen
  rw [show w'.events.toList = calls from hevents] at hwaits hfrees
  refine ⟨w', calls, ?_, hback, hwaits, hfrees⟩
  cases result with
  | error e => cases hresult
  | ok ip => rw [hrun, show ip = host from Option.some.inj hresult]

end NetBoot.Uefi.Dns
