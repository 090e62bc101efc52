import GoldenCheck.Prime.Verdict
import Mathlib.Data.Nat.Prime.Basic

/-!
# Least divisors and primes

The scan goes up from two and meets the least prime factor first, so that a number above one is its own
least divisor exactly if it is prime.
-/

namespace GoldenCheck
namespace Prime

/-! ## 1. The scan -/

/-- As long as the scan has not passed the least prime factor, it finds it. -/
theorem divisorFrom_eq_minFac {n : Nat} (hn : 2 ≤ n) (steps : Nat) {d : Nat} (hd : 2 ≤ d)
    (hle : d ≤ n.minFac) (hsteps : n < steps + d) : divisorFrom n steps d = n.minFac := by
  -- The invariant is that no prime factor lies below `d`; the steps that are left reach past `n`.
  induction steps generalizing d with
  | zero =>
    have hself : n.minFac ≤ n := Nat.minFac_le (by omega)
    omega
  | succ steps ih =>
    rw [divisorFrom]
    by_cases hsquare : n < d * d
    · have hprime : n.Prime := by
        by_contra hnot
        have hsq : n.minFac ^ 2 ≤ n := Nat.minFac_sq_le_self (by omega) hnot
        have hdd : d * d ≤ n.minFac ^ 2 := by
          rw [Nat.pow_two]
          exact Nat.mul_le_mul hle hle
        omega
      rw [if_pos hsquare, hprime.minFac_eq]
    · rw [if_neg hsquare]
      by_cases hmod : n % d = 0
      · have hge : n.minFac ≤ d := Nat.minFac_le_of_dvd hd (Nat.dvd_of_mod_eq_zero hmod)
        rw [if_pos hmod]
        omega
      · have hne : d ≠ n.minFac := by
          intro he
          exact hmod (Nat.mod_eq_zero_of_dvd (he ▸ n.minFac_dvd))
        rw [if_neg hmod]
        exact ih (by omega) (by omega) (by omega)

theorem leastDivisor_eq_minFac {n : Nat} (hn : 2 ≤ n) : leastDivisor n = n.minFac := by
  have htwo : 2 ≤ n.minFac := (Nat.minFac_prime (by omega)).two_le
  exact divisorFrom_eq_minFac hn n (Nat.le_refl 2) htwo (by omega)

theorem leastDivisor_eq_self_iff {n : Nat} (hn : 2 ≤ n) : leastDivisor n = n ↔ n.Prime := by
  rw [leastDivisor_eq_minFac hn]
  constructor
  · intro h
    rw [← h]
    exact Nat.minFac_prime (by omega)
  · exact Nat.Prime.minFac_eq

/-! ## 2. Words -/

theorem word_cast (a : Int) : (word a : Int) = a % 2 ^ 32 := by
  have hnonneg : 0 ≤ a % 0x100000000 := Int.emod_nonneg a (by decide)
  rw [word, Int.toNat_of_nonneg hnonneg]
  rfl

theorem word_lt (a : Int) : word a < 2 ^ 32 := by
  have hlt : a % 0x100000000 < 0x100000000 := Int.emod_lt_of_pos a (by decide)
  rw [word]
  omega

/-- A word is reduced to itself. -/
theorem word_word (a : Int) : word (word a) = word a := by
  have hlt := word_lt a
  rw [word, Int.emod_eq_of_lt (by omega) (by omega), Int.toNat_natCast]

/-! ## 3. Verdicts -/

theorem ofWord_eq_outOfDomain_iff (u : Nat) : Verdict.ofWord u = .outOfDomain ↔ domainMax < u := by
  unfold Verdict.ofWord
  split
  next h => simp [h]
  next h => split <;> simp [h]

theorem ofWord_eq_prime_iff (u : Nat) : Verdict.ofWord u = .prime ↔ u ≤ domainMax ∧ u.Prime := by
  unfold Verdict.ofWord
  by_cases hdomain : domainMax < u
  · simp [hdomain, Nat.not_le.2 hdomain]
  · have hprime : 1 < u ∧ leastDivisor u = u ↔ u.Prime := by
      constructor
      · intro h
        exact (leastDivisor_eq_self_iff h.1).1 h.2
      · intro h
        exact ⟨h.one_lt, (leastDivisor_eq_self_iff h.two_le).2 h⟩
    rw [if_neg hdomain]
    by_cases h : u.Prime <;> simp [hprime, h, Nat.not_lt.1 hdomain]

theorem ofWord_eq_notPrime_iff (u : Nat) :
    Verdict.ofWord u = .notPrime ↔ u ≤ domainMax ∧ ¬ u.Prime := by
  have hout := ofWord_eq_outOfDomain_iff u
  have hprime := ofWord_eq_prime_iff u
  cases h : Verdict.ofWord u <;> simp_all

end Prime
end GoldenCheck
