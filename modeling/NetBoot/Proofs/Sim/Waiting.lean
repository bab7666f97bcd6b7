/-
  NetBoot.Proofs.Sim.Waiting — runs that may wait for a key that never comes.

  A read without a time limit takes the next key of the script, and there may be none: then the run
  ends there, and nothing else ends it early. `Settles` says what a run comes to, with that as the one
  other way out. It goes through sequences (`Settles.bind`), so a computation that attends to the
  console and otherwise keeps a relation does so as a whole (`Attended`).
-/

import NetBoot.Proofs.Sim.Run

namespace NetBoot.Sim

variable {α β : Type} {w w' : World}

/-- The last that was done is a read without a time limit, and there is no key for it. -/
def Unanswered (w : World) : Prop := w.keys = [] ∧ ∃ es, w.events.toList = es ++ [.readKey 0 none]

/-- The run ends in such a value and world, or waits for a key that never comes. -/
def Settles (x : Sim α) (Q : α → World → Prop) (w : World) : Prop :=
  (∃ a w', x w = .ok a w' ∧ Q a w') ∨ ∃ w', x w = .error .noKeyLeft w' ∧ Unanswered w'

namespace Settles

variable {x : Sim α} {f : α → Sim β} {Q Q' : α → World → Prop} {S : β → World → Prop} {a : α}

theorem of_ok (h : x w = .ok a w') (hQ : Q a w') : Settles x Q w := .inl ⟨a, w', h, hQ⟩

theorem pure (h : Q a w) : Settles (Pure.pure a) Q w := of_ok rfl h

theorem mono (h : Settles x Q w) (hQ : ∀ a w', Q a w' → Q' a w') : Settles x Q' w := by
  rcases h with ⟨a, w', hx, ha⟩ | h
  · exact of_ok hx (hQ a w' ha)
  · exact .inr h

theorem bind (h : Settles x Q w) (hf : ∀ a w', Q a w' → Settles (f a) S w') : Settles (x >>= f) S w := by
  rcases h with ⟨a, w', hx, ha⟩ | ⟨w', hx, hw⟩
  · rcases hf a w' ha with ⟨b, w'', hb, hS⟩ | ⟨w'', hb, hw⟩
    · exact of_ok (by rw [bind_of_ok hx, hb]) hS
    · exact .inr ⟨w'', by rw [bind_of_ok hx, hb], hw⟩
  · exact .inr ⟨w', bind_of_error hx f, hw⟩

/-- What a run comes to is what it is run to. -/
theorem run (h : Settles x Q w) : Settles x (fun a w' => x w = .ok a w' ∧ Q a w') w := by
  rcases h with ⟨a, w', hx, ha⟩ | h
  · exact of_ok hx ⟨hx, ha⟩
  · exact .inr h

/-- A run that ends in a value ends as it should. -/
theorem of_settles (h : Settles x Q w) (hx : x w = .ok a w') : Q a w' := by
  rcases h with ⟨b, v, hr, hQ⟩ | ⟨v, hr, -⟩
  · rw [hx] at hr
    cases hr
    exact hQ
  · rw [hx] at hr
    cases hr

end Settles

/-- Every run of the computation keeps the relation, unless it waits for a key that never comes. -/
def Attended (R : World → World → Prop) (x : Sim α) : Prop := ∀ w, Settles x (fun _ => R w) w

namespace Attended

variable {R : World → World → Prop}

theorem of_total {x : Sim α} (h : Total R x) : Attended R x := fun w => .inl (h w)

theorem pure (hR : Ordered R) (a : α) : Attended R (Pure.pure a : Sim α) := of_total (.pure hR a)

theorem bind (hR : Ordered R) {x : Sim α} {f : α → Sim β} (hx : Attended R x) (hf : ∀ a, Attended R (f a)) :
    Attended R (x >>= f) := fun w =>
  (hx w).bind fun a w' h => (hf a w').mono fun _ _ h' => hR.trans h h'

/-- A part that keeps the relation, and then the rest of the run. -/
theorem settles_bind {x : Sim α} {f : α → Sim β} {S : β → World → Prop} (hx : Attended R x)
    (hf : ∀ a w', R w w' → Settles (f a) S w') : Settles (x >>= f) S w := (hx w).bind hf

theorem of_ok {x : Sim α} {a : α} (hx : Attended R x) (h : x w = .ok a w') : R w w' := (hx w).of_settles h

end Attended

end NetBoot.Sim
