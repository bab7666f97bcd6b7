/-
  NetBoot.Check — the two ways a computation with errors refuses: a condition that has to hold,
  and a value that has to be there.

  `need` and `demand` succeed exactly when the condition holds (`need_bind_eq_ok_iff`) or the
  value is there (`demand_bind_eq_ok_iff`), so a chain of them is read as a conjunction.
-/

namespace NetBoot

variable {ε α β : Type}

/-- Refuses with `e` unless `p` holds. -/
def need (p : Prop) [Decidable p] (e : ε) : Except ε Unit := if p then .ok () else .error e

/-- Refuses with `e` when there is no value. -/
def demand (o : Option α) (e : ε) : Except ε α :=
  match o with
  | some a => .ok a
  | none => .error e

theorem mapError_ok {ε' : Type} (f : ε → ε') (a : α) : (Except.ok a).mapError f = .ok a := rfl

theorem mapError_error {ε' : Type} (f : ε → ε') (e : ε) : (Except.error e : Except ε α).mapError f = .error (f e) := rfl

theorem check_bind_eq_ok_iff {x : Except ε α} {f : α → Except ε β} {b : β} :
    (x >>= f) = .ok b ↔ ∃ a, x = .ok a ∧ f a = .ok b := by
  cases x with
  | error e => exact ⟨fun hf => (nomatch hf), fun ⟨_, h, _⟩ => (nomatch h)⟩
  | ok a => exact ⟨fun hf => ⟨a, rfl, hf⟩, fun ⟨_, h, hf⟩ => by injection h with h; rw [h]; exact hf⟩

theorem need_bind_eq_ok_iff {p : Prop} [Decidable p] {e : ε} {f : Unit → Except ε β} {b : β} :
    (need p e >>= f) = .ok b ↔ p ∧ f () = .ok b := by
  by_cases h : p
  · have : need p e = .ok () := if_pos h
    rw [this]
    exact ⟨fun hf => ⟨h, hf⟩, fun hf => hf.2⟩
  · have : need p e = .error e := if_neg h
    rw [this]
    exact ⟨fun hf => (nomatch hf), fun hf => absurd hf.1 h⟩

theorem demand_eq_ok_iff {o : Option α} {e : ε} {a : α} : demand o e = .ok a ↔ o = some a := by
  cases o with
  | none => exact ⟨fun h => (nomatch h), fun h => (nomatch h)⟩
  | some b => exact ⟨fun h => by injection h with h; rw [h], fun h => by injection h with h; rw [h]; rfl⟩

theorem demand_bind_eq_ok_iff {o : Option α} {e : ε} {f : α → Except ε β} {b : β} :
    (demand o e >>= f) = .ok b ↔ ∃ a, o = some a ∧ f a = .ok b := by
  cases o with
  | none => exact ⟨fun hf => (nomatch hf), fun ⟨_, h, _⟩ => (nomatch h)⟩
  | some a => exact ⟨fun hf => ⟨a, rfl, hf⟩, fun ⟨_, h, hf⟩ => by injection h with h; rw [h]; exact hf⟩

end NetBoot
