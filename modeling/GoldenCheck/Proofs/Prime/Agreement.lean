import GoldenCheck.Prime.Checked
import GoldenCheck.Proofs.Outcome
import GoldenCheck.Proofs.Prime.LeastDivisor

/-!
# All forms of the check agree

The word, the verdict, the status, the strict answer and the sentence are five answers to one
question: whether the word is a prime among the numbers that are checked.  Each form takes the value
as it comes, and some reduce it a second time, which changes nothing; what is no integer is refused
by all in the same way.
-/

namespace GoldenCheck
namespace Prime
namespace Checked

variable {v : Json.Value} (a : Int)

/-! ## 1. Integers -/

theorem word_int : word (.int a) = .ok (Prime.word a) := rfl

theorem firstDivisor_int : firstDivisor (.int a) = .ok (Prime.firstDivisor a) := rfl

theorem classify_int : classify (.int a) = .ok (Prime.classify a) := by
  -- The divisor is asked of the word, which is reduced once more on the way.
  have hdivisor : firstDivisor (.int (Prime.word a)) = .ok (leastDivisor (Prime.word a)) := by
    rw [firstDivisor_int, Prime.firstDivisor, word_word]
  rw [classify, word_int, ok_bind, Prime.classify, Verdict.ofWord, hdivisor, ok_bind]
  split
  · rfl
  · by_cases hone : 1 < Prime.word a
    · simp only [hone, if_true, true_and]
    · simp only [hone, if_false, false_and]

theorem smallPrime_int : smallPrime (.int a) = .ok (Prime.smallPrime a) := by
  rw [smallPrime, classify_int, ok_bind, Prime.smallPrime]

theorem requireSmallPrime_int : requireSmallPrime (.int a) = Prime.requireSmallPrime a := by
  rw [requireSmallPrime, classify_int, ok_bind, word_int, ok_bind, Prime.requireSmallPrime]
  cases Prime.classify a <;> rfl

theorem describe_int : describe (.int a) = .ok (Prime.describe a) := by
  have hverdict : classify (.int (Prime.word a)) = .ok (Prime.classify a) := by
    rw [classify_int, Prime.classify, word_word, Prime.classify]
  have hdivisor : firstDivisor (.int (Prime.word a)) = .ok (Prime.firstDivisor a) := by
    rw [firstDivisor_int, Prime.firstDivisor, word_word, Prime.firstDivisor]
  rw [describe, word_int, ok_bind, hverdict, ok_bind, hdivisor, Prime.describe]
  cases Prime.classify a <;> rfl

theorem status_injective {x y : Verdict} (h : x.status = y.status) : x = y := by
  cases x <;> cases y <;> simp_all [Verdict.status]

/-- A status tells the verdict. -/
theorem smallPrime_eq_status_iff (verdict : Verdict) :
    smallPrime (.int a) = .ok verdict.status ↔ classify (.int a) = .ok verdict := by
  rw [smallPrime_int, classify_int, Except.ok.injEq, Except.ok.injEq, Prime.smallPrime]
  exact ⟨status_injective, congrArg Verdict.status⟩

/-! ## 2. Sentences -/

/-- A sentence tells the verdict: the three go apart right after the number. -/
theorem describe_eq_iff :
    (Prime.describe a = Numeral.ofNat (Prime.word a) ++ " is prime" ↔ Prime.classify a = .prime) ∧
    (Prime.describe a = Numeral.ofNat (Prime.word a) ++ " is not prime (smallest factor: " ++
        Numeral.ofNat (Prime.firstDivisor a) ++ ")" ↔ Prime.classify a = .notPrime) ∧
    (Prime.describe a =
        Numeral.ofNat (Prime.word a) ++ " is out of range (only 0..10 are checked)" ↔
      Prime.classify a = .outOfDomain) := by
  have hrange : Text.ofString " is out of range (only 0..10 are checked)" =
      Text.ofString " is out of range (only 0.." ++ Numeral.ofNat domainMax ++
        Text.ofString " are checked)" := rfl
  -- What follows the number starts with these texts, of which no two agree.
  have hprime : Text.ofString " is prime" = Text.ofString " is p" ++ Text.ofString "rime" := rfl
  have hnot : Text.ofString " is not prime (smallest factor: " =
      Text.ofString " is n" ++ Text.ofString "ot prime (smallest factor: " := rfl
  have hout : Text.ofString " is out of range (only 0.." =
      Text.ofString " is o" ++ Text.ofString "ut of range (only 0.." := rfl
  have apart : ∀ {s s' t t' : Text}, s.length = s'.length → s ≠ s' → s ++ t ≠ s' ++ t' :=
    fun hlength hne h => hne (List.append_inj_left h hlength)
  have hpn : ∀ t t' : Text, Text.ofString " is p" ++ t ≠ Text.ofString " is n" ++ t' :=
    fun _ _ => apart rfl (by decide)
  have hpo : ∀ t t' : Text, Text.ofString " is p" ++ t ≠ Text.ofString " is o" ++ t' :=
    fun _ _ => apart rfl (by decide)
  have hno : ∀ t t' : Text, Text.ofString " is n" ++ t ≠ Text.ofString " is o" ++ t' :=
    fun _ _ => apart rfl (by decide)
  rw [hrange, Prime.describe]
  cases Prime.classify a <;>
    simp only [hprime, hnot, hout, List.append_assoc, List.append_cancel_left_eq, reduceCtorEq,
      iff_false, true_and, and_true]
  · exact ⟨(hpn _ _).symm, hno _ _⟩
  · exact ⟨hpn _ _, hpo _ _⟩
  · exact ⟨(hpo _ _).symm, (hno _ _).symm⟩

/-! ## 3. Values that are no integers -/

theorem word_refused (h : ∀ n, v ≠ .int n) : word v = .error (.notInteger v.typeName) := by
  cases v with
  | int n => exact absurd rfl (h n)
  | _ => rfl

/-- The fault that a computation ends with, if it does. -/
def fault? {α : Type} : Except Fault α → Option Fault
  | .ok _ => none
  | .error f => some f

/-- The faults that the six questions about a value end with. -/
def faults (v : Json.Value) : List (Option Fault) :=
  [fault? (word v), fault? (firstDivisor v), fault? (classify v), fault? (smallPrime v),
    fault? (requireSmallPrime v), fault? (describe v)]

theorem faults_refused (h : ∀ n, v ≠ .int n) :
    ∀ f ∈ faults v, f = some (.notInteger v.typeName) := by
  simp [faults, firstDivisor, classify, smallPrime, requireSmallPrime, describe, word_refused h,
    fault?]

theorem faults_int : ∀ f ∈ faults (.int a), f = none ∨ f = some (.outOfDomain (Prime.word a)) := by
  simp only [faults, word_int, firstDivisor_int, classify_int, smallPrime_int, describe_int,
    requireSmallPrime_int, Prime.requireSmallPrime]
  -- Only the strict form can fail.
  cases Prime.classify a <;> simp [fault?]

/-! ## 4. The forms together -/

/-- What the forms of the check answer about the integer `a` with the word `u`. -/
structure Agreement (a : Int) (u : Nat) : Prop where
  residue : (u : Int) = a % 2 ^ 32
  bound : u < 2 ^ 32
  word : Checked.word (.int a) = .ok u
  prime : classify (.int a) = .ok .prime ↔ u ≤ 10 ∧ u.Prime
  outOfDomain : classify (.int a) = .ok .outOfDomain ↔ 10 < u
  notPrime : classify (.int a) = .ok .notPrime ↔ u ≤ 10 ∧ ¬ u.Prime
  statusOne : smallPrime (.int a) = .ok 1 ↔ classify (.int a) = .ok .prime
  statusMinusOne : smallPrime (.int a) = .ok (-1) ↔ classify (.int a) = .ok .outOfDomain
  statusZero : smallPrime (.int a) = .ok 0 ↔ classify (.int a) = .ok .notPrime
  refused : ∀ f, requireSmallPrime (.int a) = .error f ↔
    f = .outOfDomain u ∧ classify (.int a) = .ok .outOfDomain
  refusal : (Fault.outOfDomain u).message =
    Numeral.ofNat u ++ " is outside the supported range [0, 10]"
  required : ∀ b, requireSmallPrime (.int a) = .ok b ↔
    classify (.int a) ≠ .ok .outOfDomain ∧ (b = true ↔ classify (.int a) = .ok .prime)
  saysPrime : describe (.int a) = .ok (Numeral.ofNat u ++ " is prime") ↔
    classify (.int a) = .ok .prime
  saysNotPrime : ∃ d, firstDivisor (.int a) = .ok d ∧
    (describe (.int a) = .ok (Numeral.ofNat u ++ " is not prime (smallest factor: " ++
      Numeral.ofNat d ++ ")") ↔ classify (.int a) = .ok .notPrime)
  saysOutOfRange : describe (.int a) =
      .ok (Numeral.ofNat u ++ " is out of range (only 0..10 are checked)") ↔
    classify (.int a) = .ok .outOfDomain

theorem agreement : Agreement a (Prime.word a) where
  residue := word_cast a
  bound := word_lt a
  word := word_int a
  prime := by
    rw [classify_int, Except.ok.injEq]
    exact ofWord_eq_prime_iff _
  outOfDomain := by
    rw [classify_int, Except.ok.injEq]
    exact ofWord_eq_outOfDomain_iff _
  notPrime := by
    rw [classify_int, Except.ok.injEq]
    exact ofWord_eq_notPrime_iff _
  statusOne := smallPrime_eq_status_iff a .prime
  statusMinusOne := smallPrime_eq_status_iff a .outOfDomain
  statusZero := smallPrime_eq_status_iff a .notPrime
  refused f := by
    rw [requireSmallPrime_int, classify_int, Prime.requireSmallPrime]
    cases Prime.classify a <;> simp [eq_comm]
  refusal := rfl
  required b := by
    rw [requireSmallPrime_int, classify_int, Prime.requireSmallPrime]
    cases Prime.classify a <;> cases b <;> simp
  saysPrime := by
    rw [describe_int, classify_int, Except.ok.injEq, Except.ok.injEq]
    exact (describe_eq_iff a).1
  saysNotPrime := by
    refine ⟨Prime.firstDivisor a, firstDivisor_int a, ?_⟩
    rw [describe_int, classify_int, Except.ok.injEq, Except.ok.injEq]
    exact (describe_eq_iff a).2.1
  saysOutOfRange := by
    rw [describe_int, classify_int, Except.ok.injEq, Except.ok.injEq]
    exact (describe_eq_iff a).2.2

/-- All forms of the check agree about every integer, with each other and with primality, and none
takes it for anything else; what is no integer all refuse alike. -/
theorem forms_agree :
    (∀ a : Int, ∃ u, Agreement a u) ∧
    (∀ v : Json.Value, (∀ n, v ≠ .int n) → ∀ f ∈ faults v, f = some (.notInteger v.typeName)) ∧
    ∀ (a : Int) (typeName : String), some (.notInteger typeName) ∉ faults (.int a) := by
  refine ⟨fun a => ⟨_, agreement a⟩, fun v hv => faults_refused hv, fun a typeName hmem => ?_⟩
  rcases faults_int a _ hmem with h | h
  · cases h
  · cases h

/-- A negative integer of more than one word, and a truth value. -/
theorem negative_forms_agree :
    (classify (.int (-0x1FFFFFFF9)) = .ok .prime ∧
      describe (.int (-0x1FFFFFFF9)) = .ok "7 is prime") ∧
    ∀ f ∈ faults (.bool true), f = some (.notInteger "bool") := by
  obtain ⟨hint, hother, -⟩ := forms_agree
  obtain ⟨u, hu⟩ := hint (-0x1FFFFFFF9)
  have hseven : u = 7 := by
    have := hu.residue
    omega
  subst hseven
  have hprime := hu.prime.2 (by decide)
  exact ⟨⟨hprime, hu.saysPrime.2 hprime⟩, hother (.bool true) nofun⟩

end Checked
end Prime
end GoldenCheck
