/-
  NetBoot.Proofs.Boot.Delays — the numbers that waits between requests are drawn from.

  A step of the generator multiplies by 40014 modulo 2147483563 without ever forming the product: it
  goes by the quotient by 53668, which works because 40014 · 53668 + 12211 is the modulus. A seed is
  any number of 32 bits with a sign, so it may be negative, or larger than the modulus; its successors
  are residues. One bound on quotient and remainder (`quotient_bounds`) covers them all: it gives the
  value of a step (`step_eq`) and that nothing on the way leaves a word of 64 bits (`stepInWords_eq`).

  `Drawn seed n g` says that `g` is what a seed has come to when `n` values have been drawn, be it as
  such or for waits. Its state is then congruent to 40014 ^ n · seed (`Drawn.state_emod`), so the next
  value and the next wait are known from the seed (`draws_follow_powers`).
-/

import NetBoot.Boot.Retry
import Mathlib.RingTheory.Coprime.Lemmas
import Mathlib.RingTheory.Int.Basic

namespace NetBoot.Boot.Rng

/-! ## One step -/

/-- A number of 32 bits with a sign. -/
def IsWord32 (s : Int) : Prop := -2147483648 ≤ s ∧ s ≤ 2147483647

/-- Quotient and remainder are small, and both on the side of zero on which the number is. -/
theorem quotient_bounds {s : Int} (h : IsWord32 s) :
    -40014 ≤ s.tdiv 53668 ∧ s.tdiv 53668 ≤ 40014 ∧
      (0 ≤ s.tdiv 53668 ∧ 0 ≤ s - 53668 * s.tdiv 53668 ∧ s - 53668 * s.tdiv 53668 < 53668 ∨
        s.tdiv 53668 ≤ 0 ∧ s - 53668 * s.tdiv 53668 ≤ 0 ∧ -53668 < s - 53668 * s.tdiv 53668) := by
  obtain ⟨hlow, hhigh⟩ := h
  have hrem := Int.mul_tdiv_add_tmod s 53668
  rcases Int.le_total 0 s with hs | hs
  · have hnonneg := Int.tmod_nonneg 53668 hs
    have hlt := Int.tmod_lt_of_pos s (show (0 : Int) < 53668 by decide)
    omega
  · have hnonneg := Int.tmod_nonneg 53668 (show 0 ≤ -s by omega)
    have hlt := Int.tmod_lt_of_pos (-s) (show (0 : Int) < 53668 by decide)
    rw [Int.neg_tmod] at hnonneg hlt
    omega

/-- A step comes to the product. -/
theorem step_eq {s : Int} (h : IsWord32 s) : step s = 40014 * s % modulus := by
  have hq := quotient_bounds h
  simp only [step, modulus]
  split
  · omega
  · omega

theorem step_bounds {s : Int} (h : IsWord32 s) : 0 ≤ step s ∧ step s < modulus := by
  rw [step_eq h]
  exact ⟨Int.emod_nonneg _ (by decide), Int.emod_lt_of_pos _ (by decide)⟩

theorem isWord32_step {s : Int} (h : IsWord32 s) : IsWord32 (step s) := by
  have hb := step_bounds h
  simp only [modulus] at hb
  exact ⟨by omega, by omega⟩

/-! ## Words of 64 bits -/

/-- A result that has to fit a word of 64 bits with a sign. -/
def word? (n : Int) : Option Int := if -2 ^ 63 ≤ n ∧ n < 2 ^ 63 then some n else none

/-- A step in which every result has to fit. -/
def stepInWords (s : Int) : Option Int := do
  let q ← word? (s.tdiv 53668)
  let multiple ← word? (53668 * q)
  let rest ← word? (s - multiple)
  let product ← word? (40014 * rest)
  let share ← word? (12211 * q)
  let t ← word? (product - share)
  if t < 0 then word? (t + modulus) else return t

theorem word?_eq_some {n : Int} (hlow : -2 ^ 63 ≤ n) (hhigh : n < 2 ^ 63) : word? n = some n := if_pos ⟨hlow, hhigh⟩

/-- Nothing overflows. -/
theorem stepInWords_eq {s : Int} (h : IsWord32 s) : stepInWords s = some (step s) := by
  have hq := quotient_bounds h
  unfold stepInWords step
  generalize s.tdiv 53668 = q at hq ⊢
  have hquotient : word? q = some q := word?_eq_some (by omega) (by omega)
  have hmultiple : word? (53668 * q) = some (53668 * q) := word?_eq_some (by omega) (by omega)
  have hrest : word? (s - 53668 * q) = some (s - 53668 * q) := word?_eq_some (by omega) (by omega)
  have hproduct : word? (40014 * (s - 53668 * q)) = some (40014 * (s - 53668 * q)) :=
    word?_eq_some (by omega) (by omega)
  have hshare : word? (12211 * q) = some (12211 * q) := word?_eq_some (by omega) (by omega)
  have hdifference : word? (40014 * (s - 53668 * q) - 12211 * q) = some (40014 * (s - 53668 * q) - 12211 * q) :=
    word?_eq_some (by omega) (by omega)
  simp only [hquotient, hmultiple, hrest, hproduct, hshare, hdifference, Option.bind_eq_bind, Option.bind_some]
  split
  · simp only [modulus]
    exact word?_eq_some (by omega) (by omega)
  · rfl

/-! ## Draws -/

variable {seed : Int32} {n : Nat} {g : Rng} {maxSeconds : Nat}

theorem nextDelay_fallback (h : g.seed = 0 ∨ maxSeconds = 0) : g.nextDelay maxSeconds = (fallbackDelay, g) := if_pos h

/-- A wait is drawn by drawing a value. -/
theorem nextDelay_snd (hseed : g.seed ≠ 0) (hmax : 0 < maxSeconds) : (g.nextDelay maxSeconds).2 = g.next.2 := by
  have hdrawn : ¬ (g.seed = 0 ∨ maxSeconds = 0) := not_or.mpr ⟨hseed, Nat.ne_of_gt hmax⟩
  rw [nextDelay, if_neg hdrawn]

/-- A wait is a second at least; its upper bound is never cut in. -/
theorem nextDelay_fst (hseed : g.seed ≠ 0) (hmax : 0 < maxSeconds) (hword : IsWord32 g.state) :
    (g.nextDelay maxSeconds).1 = max 1000 (1 + g.next.1.toNat % (maxSeconds * 1000)) := by
  have hdrawn : ¬ (g.seed = 0 ∨ maxSeconds = 0) := not_or.mpr ⟨hseed, Nat.ne_of_gt hmax⟩
  obtain ⟨hnonneg, hlt⟩ := step_bounds hword
  obtain ⟨v, hv⟩ := Int.eq_ofNat_of_zero_le hnonneg
  have hvalue : g.next.1 = v := hv
  have hlimit : ((maxSeconds : Int) * 1000) = ((maxSeconds * 1000 : Nat) : Int) := by simp
  rw [hv, modulus] at hlt
  rw [nextDelay, if_neg hdrawn]
  simp only [hvalue, hlimit, ← Int.natCast_mod, Int.toNat_natCast]
  have hmod : v % (maxSeconds * 1000) < maxSeconds * 1000 := Nat.mod_lt _ (by omega)
  have hle : v % (maxSeconds * 1000) ≤ v := Nat.mod_le _ _
  generalize v % (maxSeconds * 1000) = r at hmod hle ⊢
  simp only [UInt32.size]
  split
  · omega
  · omega

/-- The generators that so many values have been drawn from. A wait takes a value, unless none can be
    drawn for it. -/
inductive Drawn (seed : Int32) : Nat → Rng → Prop
  | fresh : Drawn seed 0 (ofSeed seed)
  | value {n : Nat} {g : Rng} : Drawn seed n g → Drawn seed (n + 1) g.next.2
  | wait {n : Nat} {g : Rng} {maxSeconds : Nat} : Drawn seed n g → seed ≠ 0 → 0 < maxSeconds →
      Drawn seed (n + 1) (g.nextDelay maxSeconds).2
  | fallback {n : Nat} {g : Rng} {maxSeconds : Nat} : Drawn seed n g → seed = 0 ∨ maxSeconds = 0 →
      Drawn seed n (g.nextDelay maxSeconds).2

namespace Drawn

theorem seed_eq (h : Drawn seed n g) : g.seed = seed := by
  induction h with
  | fresh => rfl
  | value _ ih => exact ih
  | wait _ hseed hmax ih =>
    rw [nextDelay_snd (by rwa [ih]) hmax]
    exact ih
  | fallback _ hnone ih =>
    rw [nextDelay_fallback (by rwa [ih])]
    exact ih

/-- What a draw has to be shown, whether it is for a wait or not. -/
theorem rec_next {P : Nat → Rng → Prop} (h : Drawn seed n g) (hfresh : P 0 (ofSeed seed))
    (hnext : ∀ n g, P n g → P (n + 1) g.next.2) : P n g := by
  induction h with
  | fresh => exact hfresh
  | value _ ih => exact hnext _ _ ih
  | wait hg hseed hmax ih =>
    rw [nextDelay_snd (by rwa [hg.seed_eq]) hmax]
    exact hnext _ _ ih
  | fallback hg hnone ih =>
    rw [nextDelay_fallback (by rwa [hg.seed_eq])]
    exact ih

theorem isWord32 (h : Drawn seed n g) : IsWord32 g.state := by
  refine h.rec_next (P := fun _ g => IsWord32 g.state) ?_ fun _ _ => isWord32_step
  have hlow := seed.minValue_le_toInt
  have hhigh := seed.toInt_le
  exact ⟨hlow, hhigh⟩

theorem state_emod (h : Drawn seed n g) : g.state % modulus = 40014 ^ n * seed.toInt % modulus := by
  suffices hboth : IsWord32 g.state ∧ g.state % modulus = 40014 ^ n * seed.toInt % modulus from hboth.2
  refine h.rec_next (P := fun n g => IsWord32 g.state ∧ g.state % modulus = 40014 ^ n * seed.toInt % modulus) ?_ ?_
  · exact ⟨Drawn.fresh.isWord32, by simp [ofSeed]⟩
  · intro n g hg
    refine ⟨isWord32_step hg.1, ?_⟩
    calc step g.state % modulus = 40014 * g.state % modulus := by rw [step_eq hg.1, Int.emod_emod]
      _ = 40014 * (40014 ^ n * seed.toInt) % modulus := by rw [Int.mul_emod, hg.2, ← Int.mul_emod]
      _ = 40014 ^ (n + 1) * seed.toInt % modulus := by rw [← Int.mul_assoc, ← pow_succ']

/-- The next value is the next power times the seed. -/
theorem next_eq (h : Drawn seed n g) : g.next.1 = 40014 ^ (n + 1) * seed.toInt % modulus := by
  have hnext : g.next.1 % modulus = 40014 ^ (n + 1) * seed.toInt % modulus := h.value.state_emod
  obtain ⟨hnonneg, hlt⟩ := step_bounds h.isWord32
  rw [← hnext]
  exact (Int.emod_eq_of_lt hnonneg hlt).symm

end Drawn

/-- The multiplier has no factor in common with the modulus. -/
theorem isCoprime_modulus (n : Nat) : IsCoprime modulus (40014 ^ n) :=
  IsCoprime.pow_right (Int.isCoprime_iff_gcd_eq_one.mpr (by decide +kernel))

/-- What is drawn next, when `n` values have been drawn. -/
structure NextDraw (seed : Int32) (n : Nat) (g : Rng) : Prop where
  value : g.next.1 = 40014 ^ (n + 1) * seed.toInt % modulus
  residue : 0 ≤ g.next.1 ∧ g.next.1 < modulus
  /-- The value comes about without an overflow. -/
  inWords : stepInWords g.state = some g.next.1
  /-- Zero is drawn from multiples of the modulus, and from nothing else. -/
  zero : g.next.1 = 0 ↔ modulus ∣ seed.toInt
  wait : seed ≠ 0 → ∀ maxSeconds, 0 < maxSeconds →
    (g.nextDelay maxSeconds).1 = max 1000 (1 + g.next.1.toNat % (maxSeconds * 1000)) ∧
      1000 ≤ (g.nextDelay maxSeconds).1 ∧ (g.nextDelay maxSeconds).1 ≤ maxSeconds * 1000 ∧
      (g.nextDelay maxSeconds).1 < UInt32.size ∧ (g.nextDelay maxSeconds).2 = g.next.2

/-- Whatever has been drawn before, the next value is the power of 40014 that its number says, times
    the seed, modulo 2147483563; and a wait is made of that value alone. -/
theorem draws_follow_powers (h : Drawn seed n g) : NextDraw seed n g where
  value := h.next_eq
  residue := step_bounds h.isWord32
  inWords := stepInWords_eq h.isWord32
  zero := by
    rw [h.next_eq, ← Int.dvd_iff_emod_eq_zero]
    constructor
    · intro hdvd
      exact (isCoprime_modulus (n + 1)).dvd_of_dvd_mul_left hdvd
    · intro hdvd
      exact Dvd.dvd.mul_left hdvd _
  wait := by
    intro hseed maxSeconds hmax
    have hg : g.seed ≠ 0 := by rwa [h.seed_eq]
    have hfst := nextDelay_fst hg hmax h.isWord32
    obtain ⟨hnonneg, hlt⟩ := step_bounds h.isWord32
    have hvalue : g.next.1.toNat < 2147483563 := by
      have hv : g.next.1 < 2147483563 := hlt
      omega
    have hmod : g.next.1.toNat % (maxSeconds * 1000) < maxSeconds * 1000 := Nat.mod_lt _ (by omega)
    have hle := Nat.mod_le g.next.1.toNat (maxSeconds * 1000)
    have hsize : UInt32.size = 4294967296 := rfl
    refine ⟨hfst, ?_, ?_, ?_, nextDelay_snd hg hmax⟩ <;> omega

/-- The smallest seed there is, and a wait that has been drawn from it before. -/
theorem smallestSeed_draws :
    let g := ((ofSeed (-2147483648)).nextDelay 20).2
    Drawn (-2147483648) 1 g ∧ NextDraw (-2147483648) 1 g ∧ g.next.1 = 1343731372 ∧ (g.nextDelay 20).1 = 11373 := by
  intro g
  have hg : Drawn (-2147483648) 1 g := .wait .fresh (by decide) (by decide)
  refine ⟨hg, draws_follow_powers hg, ?_, ?_⟩ <;> decide +kernel

end NetBoot.Boot.Rng
