/-
  NetBoot.Proofs.Image.Strict.Basic — steps that may only be taken within bounds.

  An image is loaded with numbers of any size, and with byte strings that answer or ignore what lies
  outside them. A machine has words of 64 bits and byte strings that end. Here is what such a machine
  insists on: the result of a sum fits a word (`fits`), a difference is not below zero (`above`), and
  bytes are taken from a string, or put into it, where it has them (`slice`, `store`, `u16`, `u32`). A
  step that does not keep to that is a `Violation`; it is no error of the image, and nothing recovers
  from it.

  An `Attempt` is a computation of such steps that may also refuse the image. `of_bind` and `lift_bind`
  compare it, step by step, with one that makes no checks.
-/

import NetBoot.Check
import NetBoot.Address
import NetBoot.Bytes
import NetBoot.Image.Error

namespace NetBoot.Image

/-- What no run may do. -/
inductive Violation where
  /-- A sum beyond its word, or a difference below zero. -/
  | overflow
  /-- Bytes that a byte string does not have. -/
  | outOfRange
  /-- Memory outside the pages at hand. -/
  | outsidePages
  deriving DecidableEq, Repr

abbrev Strict := Except Violation

namespace Strict

variable {α β : Type}

/-! ## Steps -/

/-- The result of a sum, in a word. -/
def fits (n : Nat) : Strict Unit := need (n < UInt64.size) .overflow

/-- Before `b` is taken from `a`. -/
def above (a b : Nat) : Strict Unit := need (b ≤ a) .overflow

/-- The bytes from `start` up to `stop`. -/
def slice (b : Bytes) (start stop : Nat) : Strict Bytes := do
  need (start ≤ stop ∧ stop ≤ b.size) .outOfRange
  return b.extract start stop

/-- Puts as many bytes in place of those from `start` up to `stop`. -/
def store (b : Bytes) (start stop : Nat) (src : Bytes) : Strict Bytes := do
  need (start ≤ stop ∧ stop ≤ b.size ∧ src.size = stop - start) .outOfRange
  return b.overwrite start src

def u16 (b : Bytes) (pos : Nat) : Strict UInt16 := do
  fits (pos + 1)
  demand (b.u16At? pos) .outOfRange

def u32 (b : Bytes) (pos : Nat) : Strict UInt32 := do
  fits (pos + 3)
  demand (b.u32At? pos) .outOfRange

theorem ok_bind (a : α) (f : α → Strict β) : (Except.ok a >>= f) = f a := rfl

theorem fits_of_lt {n : Nat} (h : n < UInt64.size) : fits n = .ok () := if_pos h

theorem above_of_le {a b : Nat} (h : b ≤ a) : above a b = .ok () := if_pos h

theorem slice_of_le {b : Bytes} {start stop : Nat} (h : start ≤ stop) (hs : stop ≤ b.size) :
    slice b start stop = .ok (b.extract start stop) := by
  have hn : (need (start ≤ stop ∧ stop ≤ b.size) .outOfRange : Strict Unit) = .ok () := if_pos ⟨h, hs⟩
  rw [slice, hn]
  rfl

theorem store_of_le {b src : Bytes} {start stop : Nat} (h : start ≤ stop) (hs : stop ≤ b.size)
    (hsrc : src.size = stop - start) : store b start stop src = .ok (b.overwrite start src) := by
  have hn : (need (start ≤ stop ∧ stop ≤ b.size ∧ src.size = stop - start) .outOfRange : Strict Unit) = .ok () :=
    if_pos ⟨h, hs, hsrc⟩
  rw [store, hn]
  rfl

theorem u16_of_some {b : Bytes} {pos : Nat} {v : UInt16} (hf : pos + 1 < UInt64.size) (h : b.u16At? pos = some v) :
    u16 b pos = .ok v := by
  rw [u16, fits_of_lt hf, h]
  rfl

theorem u32_of_some {b : Bytes} {pos : Nat} {v : UInt32} (hf : pos + 3 < UInt64.size) (h : b.u32At? pos = some v) :
    u32 b pos = .ok v := by
  rw [u32, fits_of_lt hf, h]
  rfl

end Strict

/-! ## Attempts -/

/-- Strict steps that may end with the image refused. -/
abbrev Attempt := ExceptT LoadError Strict

namespace Attempt

variable {α β : Type}

/-- A step that only checks the image. -/
def of (x : Except LoadError α) : Attempt α := .mk (.ok x)

theorem of_ok_bind (a : α) (f : α → Attempt β) : (of (.ok a) >>= f) = f a := rfl

/-- Steps that only check the image, and what follows if they all succeed. -/
theorem of_bind {x : Except LoadError α} {f : α → Attempt β} {g : α → Except LoadError β}
    (h : ∀ a, x = .ok a → f a = of (g a)) : (of x >>= f) = of (x >>= g) := by
  cases x with
  | error e => rfl
  | ok a => exact h a rfl

theorem of_need_bind {p : Prop} [Decidable p] {e : LoadError} {f : Unit → Attempt β} {g : Unit → Except LoadError β}
    (h : p → f () = of (g ())) : (of (need p e) >>= f) = of (need p e >>= g) := by
  by_cases hp : p
  · have hn : need p e = .ok () := if_pos hp
    rw [hn]
    exact h hp
  · have hn : need p e = .error e := if_neg hp
    rw [hn]
    rfl

theorem of_demand_bind {o : Option α} {e : LoadError} {f : α → Attempt β} {g : α → Except LoadError β}
    (h : ∀ a, o = some a → f a = of (g a)) : (of (demand o e) >>= f) = of (demand o e >>= g) := by
  cases o with
  | none => rfl
  | some a => exact h a rfl

/-- A strict step that is taken. -/
theorem lift_bind {x : Strict α} {a : α} (h : x = .ok a) (f : α → Attempt β) : (liftM x >>= f : Attempt β) = f a := by
  rw [h]
  rfl

end Attempt

end NetBoot.Image
