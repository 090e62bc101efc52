import GoldenCheck.Proofs.Json.Integers

/-!
# Texts of integers

The grammar of an integer and of a list of integers, and how the reader takes an integer off a text:
a number ends where no digit, point or exponent follows, so that the longest number at the front is
the one that the grammar has there.
-/

namespace GoldenCheck
namespace Json

/-! ## 1. The grammar -/

/-- Any run of space, tab, LF and CR. -/
def Blank (s : List Char) : Prop := ∀ c ∈ s, c = ' ' ∨ c = '\t' ∨ c = '\n' ∨ c = '\r'

/-- `0`, or digits of which the first is not `0`. -/
inductive WholeText : List Char → Prop
  | zero : WholeText ['0']
  | digits {c : Char} {ds : List Char} : c.isDigit = true → c ≠ '0' →
    (∀ d ∈ ds, d.isDigit = true) → WholeText (c :: ds)

/-- The whole texts of at most 4300 digits with a minus sign or without, and what they denote. -/
inductive IntegerText : List Char → Int → Prop
  | plain {ds : List Char} : WholeText ds → ds.length ≤ 4300 →
    IntegerText ds (Nat.ofDigitChars 10 ds 0)
  | negative {ds : List Char} : WholeText ds → ds.length ≤ 4300 →
    IntegerText ('-' :: ds) (-(Nat.ofDigitChars 10 ds 0 : Int))

/-- Items with blanks around them and commas between them. -/
inductive ItemsText (item : List Char → Int → Prop) : List Char → List Int → Prop
  | last {b t a : List Char} {x : Int} : Blank b → item t x → Blank a →
    ItemsText item (b ++ t ++ a) [x]
  | next {b t a rest : List Char} {x : Int} {xs : List Int} : Blank b → item t x → Blank a →
    ItemsText item rest xs → ItemsText item (b ++ t ++ a ++ ',' :: rest) (x :: xs)

/-- A list in brackets with blanks around it. -/
inductive ListText (item : List Char → Int → Prop) : List Char → List Int → Prop
  | empty {b m a : List Char} : Blank b → Blank m → Blank a →
    ListText item (b ++ '[' :: m ++ ']' :: a) []
  | items {b body a : List Char} {xs : List Int} : Blank b → ItemsText item body xs → Blank a →
    ListText item (b ++ '[' :: body ++ ']' :: a) xs

theorem ItemsText.mono {item item' : List Char → Int → Prop} {s : List Char} {xs : List Int}
    (h : ItemsText item s xs) (hitem : ∀ t, ∀ x ∈ xs, item t x → item' t x) :
    ItemsText item' s xs := by
  induction h with
  | last hb ht ha => exact .last hb (hitem _ _ List.mem_cons_self ht) ha
  | next hb ht ha _ ih =>
    exact .next hb (hitem _ _ List.mem_cons_self ht) ha
      (ih fun t x hx => hitem t x (List.mem_cons_of_mem _ hx))

theorem ListText.mono {item item' : List Char → Int → Prop} {s : List Char} {xs : List Int}
    (h : ListText item s xs) (hitem : ∀ t, ∀ x ∈ xs, item t x → item' t x) :
    ListText item' s xs := by
  cases h with
  | empty hb hm ha => exact .empty hb hm ha
  | items hb hbody ha => exact .items hb (hbody.mono hitem) ha

/-! ## 2. Numerals are integer texts -/

theorem wholeText_digits (n : Nat) : WholeText (Numeral.digits n) := by
  -- Below ten there is one digit; from ten on the digits of the tenth part come first.
  induction n using Nat.strongRecOn with
  | ind n ih =>
    unfold Numeral.digits at ih ⊢
    by_cases hn : n < 10
    · rw [Nat.toDigits_of_lt_base hn]
      by_cases hzero : n = 0
      · rw [hzero]
        exact .zero
      · refine .digits (by rw [Nat.isDigit_digitChar]; exact decide_eq_true hn) ?_ nofun
        have hne : ∀ m < 10, m ≠ 0 → Nat.digitChar m ≠ '0' := by decide
        exact hne n hn hzero
    · rw [Nat.toDigits_of_base_le (by decide) (by omega)]
      have hlast : (Nat.digitChar (n % 10)).isDigit = true := by
        rw [Nat.isDigit_digitChar]
        exact decide_eq_true (by omega)
      have hrec := ih (n / 10) (by omega)
      cases hds : Nat.toDigits 10 (n / 10) with
      | nil => exact absurd hds Nat.toDigits_ne_nil
      | cons c ds =>
        rw [hds] at hrec
        cases hrec with
        | zero =>
          -- The tenth part is not zero.
          have hback : Nat.ofDigitChars 10 (Nat.toDigits 10 (n / 10)) 0 = n / 10 :=
            Nat.ofDigitChars_ten_toDigits
          rw [hds] at hback
          change 0 = n / 10 at hback
          omega
        | digits hc hne hds =>
          refine .digits hc hne fun d hd => ?_
          rcases List.mem_append.1 hd with hd | hd
          · exact hds d hd
          · rw [List.mem_singleton.1 hd]
            exact hlast

/-- The numeral of a short integer is one of its texts. -/
theorem integerText_ofInt {a : Int} (h : Numeral.Short a) : IntegerText (Numeral.ofInt a) a := by
  have hback : Nat.ofDigitChars 10 (Numeral.digits a.natAbs) 0 = a.natAbs :=
    Nat.ofDigitChars_ten_toDigits
  unfold Numeral.ofInt
  split
  next hneg =>
    have htext := IntegerText.negative (wholeText_digits a.natAbs) h
    rwa [hback, show -(a.natAbs : Int) = a by omega] at htext
  next hneg =>
    have htext := IntegerText.plain (wholeText_digits a.natAbs) h
    rwa [hback, show (a.natAbs : Int) = a by omega] at htext

/-! ## 3. Blanks -/

theorem isSpace_iff (c : Char) : isSpace c = true ↔ c = ' ' ∨ c = '\t' ∨ c = '\n' ∨ c = '\r' := by
  simp [isSpace, or_assoc]

/-- What is skipped is blank. -/
theorem exists_blank (s : List Char) : ∃ b, Blank b ∧ s = b ++ skipSpace s := by
  refine ⟨s.takeWhile isSpace, fun c hc => ?_, List.takeWhile_append_dropWhile.symm⟩
  exact (isSpace_iff c).1 (List.all_eq_true.1 List.all_takeWhile c hc)

theorem skipSpace_append {b : List Char} (h : Blank b) (r : List Char) :
    skipSpace (b ++ r) = skipSpace r :=
  List.dropWhile_append_of_pos fun c hc => (isSpace_iff c).2 (h c hc)

theorem skipSpace_cons {c : Char} (h : isSpace c = false) (r : List Char) :
    skipSpace (c :: r) = c :: r := by
  rw [skipSpace, List.dropWhile_cons, h]
  rfl

theorem skipSpace_blank {b : List Char} (h : Blank b) : skipSpace b = [] := by
  have := skipSpace_append h []
  rwa [List.append_nil] at this

/-! ## 4. Integers -/

theorem value_eq_ofDigitChars (ds : List Char) :
    DecimalText.value ds = Nat.ofDigitChars 10 ds 0 := by
  rw [DecimalText.value, Numeral.value, List.foldl_map, Nat.ofDigitChars]
  congr 1
  funext n c
  rw [Nat.mul_comm]

theorem wholePart_eq_some {s whole t : List Char} (h : wholePart s = some (whole, t)) :
    WholeText whole ∧ s = whole ++ t := by
  cases s with
  | nil => contradiction
  | cons c s =>
    simp only [wholePart] at h
    split at h
    next hc => cases h; exact ⟨.zero, by rw [hc]; rfl⟩
    next hc =>
      split at h
      next hdigit =>
        cases h
        refine ⟨.digits hdigit hc fun d hd => List.all_eq_true.1 List.all_takeWhile d hd, ?_⟩
        rw [List.cons_append, List.takeWhile_append_dropWhile]
      next => contradiction

theorem fraction_eq_nil {t : List Char} (h : (DecimalText.fraction t).1 = []) :
    (DecimalText.fraction t).2 = t := by
  unfold DecimalText.fraction at h ⊢
  split
  next u =>
    split
    next => rfl
    next hne =>
      simp only at h
      exact absurd h hne
  next => rfl

theorem exponent_eq_none {t : List Char} (h : (DecimalText.exponent t).1 = none) :
    (DecimalText.exponent t).2 = t := by
  unfold DecimalText.exponent at h ⊢
  split
  next c u =>
    split
    next hc =>
      simp only [if_pos hc] at h
      split
      next => rfl
      next hne =>
        split at h
        next hnil => exact absurd hnil hne
        next => contradiction
    next => rfl
  next => rfl

/-- An integer that is read is what its text denotes. -/
theorem number_eq_int {s r : List Char} {n : Int} (h : number s = .ok (.int n, r)) :
    ∃ t, IntegerText t n ∧ s = t ++ r := by
  unfold number at h
  split at h
  · contradiction
  next whole u hw =>
    simp only at h
    split at h
    next hplain =>
      -- Neither a fraction nor an exponent was taken off.
      rw [Bool.and_eq_true, List.isEmpty_iff, Option.isNone_iff_eq_none] at hplain
      have hfraction := fraction_eq_nil hplain.1
      have hexponent := exponent_eq_none hplain.2
      rw [hexponent, hfraction] at h
      split at h
      next hlen =>
        obtain ⟨hwhole, hs⟩ := wholePart_eq_some hw
        cases h
        unfold minus at hs ⊢
        split
        next v =>
          refine ⟨'-' :: whole, ?_, by simpa using hs⟩
          rw [DecimalText.signed, if_pos rfl, value_eq_ofDigitChars]
          exact .negative hwhole hlen
        next hminus =>
          refine ⟨whole, ?_, by simpa [hminus] using hs⟩
          simp only [DecimalText.signed, Bool.false_eq_true, if_false, value_eq_ofDigitChars]
          exact .plain hwhole hlen
      next => contradiction
    next => cases h

/-- The rest of a text in which a number cannot go on. -/
def Stops (r : List Char) : Prop :=
  ∀ c ∈ r.head?, c.isDigit = false ∧ c ≠ '.' ∧ c ≠ 'e' ∧ c ≠ 'E'

theorem wholePart_append {whole r : List Char} (h : WholeText whole) (hr : Stops r) :
    wholePart (whole ++ r) = some (whole, r) := by
  cases h with
  | zero => rfl
  | @digits c ds hc hne hds =>
    have hrest : r.takeWhile Char.isDigit = [] ∧ r.dropWhile Char.isDigit = r := by
      cases r with
      | nil => exact ⟨rfl, rfl⟩
      | cons d r => simp [(hr d rfl).1]
    rw [List.cons_append, wholePart, if_neg hne, if_pos hc, List.takeWhile_append_of_pos hds,
      List.dropWhile_append_of_pos hds, hrest.1, hrest.2, List.append_nil]

theorem fraction_stops {r : List Char} (h : Stops r) : DecimalText.fraction r = ([], r) := by
  unfold DecimalText.fraction
  split
  next u => exact absurd rfl (h '.' rfl).2.1
  next => rfl

theorem exponent_stops {r : List Char} (h : Stops r) : DecimalText.exponent r = (none, r) := by
  cases r with
  | nil => rfl
  | cons c r =>
    have hc := h c rfl
    rw [DecimalText.exponent, if_neg (by simp [hc])]

theorem WholeText.head_isDigit {ds : List Char} (h : WholeText ds) :
    ∃ c rest, ds = c :: rest ∧ c.isDigit = true := by
  cases h with
  | zero => exact ⟨_, _, rfl, by decide⟩
  | digits hc _ _ => exact ⟨_, _, rfl, hc⟩

/-- The text of an integer is read up to where no number can go on. -/
theorem number_append {t r : List Char} {n : Int} (h : IntegerText t n) (hr : Stops r) :
    number (t ++ r) = .ok (.int n, r) := by
  cases h with
  | plain hwhole hlen =>
    obtain ⟨c, rest, rfl, hc⟩ := hwhole.head_isDigit
    have hminus : minus (c :: rest ++ r) = (false, c :: rest ++ r) := by
      rw [List.cons_append, minus]
      rintro s hs
      cases hs
      exact absurd hc (by decide)
    simp only [number, hminus, wholePart_append hwhole hr, fraction_stops hr, exponent_stops hr,
      List.isEmpty_nil, Option.isNone_none, Bool.and_self, if_true]
    rw [if_pos (show _ ≤ Numeral.digitLimit from hlen), DecimalText.signed,
      if_neg Bool.false_ne_true, value_eq_ofDigitChars]
  | @negative ds hwhole hlen =>
    have hminus : minus ('-' :: ds ++ r) = (true, ds ++ r) := rfl
    simp only [number, hminus, wholePart_append hwhole hr, fraction_stops hr, exponent_stops hr,
      List.isEmpty_nil, Option.isNone_none, Bool.and_self, if_true]
    rw [if_pos (show _ ≤ Numeral.digitLimit from hlen), DecimalText.signed, if_pos rfl,
      value_eq_ofDigitChars]

end Json
end GoldenCheck
