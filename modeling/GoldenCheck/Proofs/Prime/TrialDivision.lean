import GoldenCheck.Proofs.Prime.Agreement

/-!
# Trial division by every number

The least divisor is looked for up to the square root only.  The plain scan tries two, three and so on
up to the number itself.  It ends for every number, with the same answer: the least prime factor, or the
number itself where that has none.
-/

namespace GoldenCheck
namespace Prime

/-! ## 1. The plain scan -/

/-- Trying `d` and the numbers after it as divisors of `n` ends in `r`, after `misses` candidates that
do not divide. -/
inductive TrialDivision (n : Nat) : (misses d r : Nat) → Prop
  | exhausted {d : Nat} : n ≤ d → TrialDivision n 0 d n
  | found {d : Nat} : d < n → n % d = 0 → TrialDivision n 0 d d
  | next {misses d r : Nat} : d < n → n % d ≠ 0 → TrialDivision n misses (d + 1) r →
    TrialDivision n (misses + 1) d r

theorem TrialDivision.unique {n misses misses' d r r' : Nat} (h : TrialDivision n misses d r)
    (h' : TrialDivision n misses' d r') : r' = r := by
  -- Each candidate allows one of the three rules only.
  induction h generalizing misses' with
  | exhausted hpast =>
    cases h' with
    | exhausted _ => rfl
    | found hlt _ => omega
    | next hlt _ _ => omega
  | found hlt hmod =>
    cases h' with
    | exhausted hpast => omega
    | found _ _ => rfl
    | next _ hmiss _ => exact absurd hmod hmiss
  | next hlt hmiss _ ih =>
    cases h' with
    | exhausted hpast => omega
    | found _ hmod => exact absurd hmod hmiss
    | next _ _ hrest => exact ih hrest

/-- A candidate below the least prime factor does not divide. -/
theorem mod_ne_zero_of_lt_minFac {n d : Nat} (hd : 2 ≤ d) (hlt : d < n.minFac) : n % d ≠ 0 := by
  intro hmod
  have hle : n.minFac ≤ d := Nat.minFac_le_of_dvd hd (Nat.dvd_of_mod_eq_zero hmod)
  omega

/-- The scan misses once for each candidate before the least prime factor, which it then finds. -/
theorem trialDivision_minFac {n : Nat} (hn : 2 ≤ n) (misses : Nat) {d : Nat} (hd : 2 ≤ d)
    (hmisses : d + misses = n.minFac) : TrialDivision n misses d n.minFac := by
  have hself : n.minFac ≤ n := Nat.minFac_le (by omega)
  -- Induction on the candidates that are left before the least prime factor.
  induction misses generalizing d with
  | zero =>
    obtain rfl : d = n.minFac := hmisses
    by_cases hprime : n ≤ n.minFac
    · have hsame : n.minFac = n := by omega
      rw [hsame]
      exact .exhausted (Nat.le_refl n)
    · exact .found (by omega) (Nat.mod_eq_zero_of_dvd n.minFac_dvd)
  | succ misses ih =>
    have hrest := ih (d := d + 1) (by omega) (by omega)
    exact .next (by omega) (mod_ne_zero_of_lt_minFac hd (by omega)) hrest

theorem leastDivisor_of_lt_two {n : Nat} (hn : n < 2) : leastDivisor n = n := by
  have hsmall : n = 0 ∨ n = 1 := by omega
  rcases hsmall with rfl | rfl <;> rfl

/-- The plain scan ends in the least divisor, whatever the number. -/
theorem trialDivision_leastDivisor (n : Nat) :
    TrialDivision n (leastDivisor n - 2) 2 (leastDivisor n) := by
  by_cases hn : 2 ≤ n
  · have htwo : 2 ≤ n.minFac := (Nat.minFac_prime (by omega)).two_le
    rw [leastDivisor_eq_minFac hn]
    exact trialDivision_minFac hn _ (Nat.le_refl 2) (by omega)
  · have hnone : n - 2 = 0 := by omega
    rw [leastDivisor_of_lt_two (by omega), hnone]
    exact .exhausted (by omega)

/-! ## 2. Below the number itself -/

theorem leastDivisor_square_le {n : Nat} (hn : 2 ≤ n) (hlt : leastDivisor n < n) :
    leastDivisor n * leastDivisor n ≤ n := by
  have hcomposite : ¬ n.Prime := by
    intro hprime
    have hself := (leastDivisor_eq_self_iff hn).2 hprime
    omega
  rw [leastDivisor_eq_minFac hn, ← Nat.pow_two]
  exact Nat.minFac_sq_le_self (by omega) hcomposite

/-- A number whose square fits in a word fits in half of one. -/
theorem lt_of_square_le_word {r : Nat} {a : Int} (h : r * r ≤ word a) : r < 2 ^ 16 := by
  by_contra hge
  have hsquare : 2 ^ 16 * 2 ^ 16 ≤ r * r := Nat.mul_le_mul (by omega) (by omega)
  have hlt := word_lt a
  omega

/-! ## 3. The first divisor of an integer -/

/-- For every integer the scan over its word ends.  It ends in the word itself below two, and else in
its least prime factor, which is the word exactly if that is prime and at most its root otherwise. -/
theorem firstDivisor_is_least_prime_factor (a : Int) :
    ∃ u r : Nat, (u : Int) = a % 2 ^ 32 ∧ Checked.firstDivisor (.int a) = .ok r ∧
      TrialDivision u (r - 2) 2 r ∧ (∀ misses s, TrialDivision u misses 2 s → s = r) ∧
      (u < 2 → r = u) ∧
      (2 ≤ u → r.Prime ∧ r ∣ u ∧ (∀ j, 2 ≤ j → j < r → ¬ j ∣ u) ∧ (r = u ↔ u.Prime) ∧
        (r < u → r * r ≤ u ∧ r < 2 ^ 16)) := by
  have hscan := trialDivision_leastDivisor (word a)
  refine ⟨word a, firstDivisor a, word_cast a, Checked.firstDivisor_int a, hscan, ?_, ?_, ?_⟩
  · intro misses s hs
    exact hscan.unique hs
  · exact leastDivisor_of_lt_two
  · intro hu
    have hminFac : firstDivisor a = (word a).minFac := leastDivisor_eq_minFac hu
    refine ⟨?_, ?_, ?_, leastDivisor_eq_self_iff hu, ?_⟩
    · rw [hminFac]
      exact Nat.minFac_prime (by omega)
    · rw [hminFac]
      exact (word a).minFac_dvd
    · intro j hj hlt hdvd
      rw [hminFac] at hlt
      exact mod_ne_zero_of_lt_minFac hj hlt (Nat.mod_eq_zero_of_dvd hdvd)
    · intro hlt
      have hsquare := leastDivisor_square_le hu hlt
      exact ⟨hsquare, lt_of_square_le_word hsquare⟩

/-- Minus one is the word 4294967295, which three divides and two does not. -/
theorem minusOne_is_least_prime_factor : Checked.firstDivisor (.int (-1)) = .ok 3 := by
  obtain ⟨u, r, hu, hr, -, -, -, hleast⟩ := firstDivisor_is_least_prime_factor (-1)
  obtain rfl : u = 4294967295 := by
    rw [show (-1 : Int) % 2 ^ 32 = 4294967295 from rfl] at hu
    omega
  obtain ⟨hprime, hdvd, hbelow, -⟩ := hleast (by decide)
  have htwo : 2 ≤ r := hprime.two_le
  have hle : r ≤ 3 := by
    by_contra hgt
    exact hbelow 3 (by decide) (by omega) (by decide)
  have hthree : r ≠ 2 := by
    rintro rfl
    exact absurd hdvd (by decide)
  rw [hr, show r = 3 by omega]

end Prime
end GoldenCheck
