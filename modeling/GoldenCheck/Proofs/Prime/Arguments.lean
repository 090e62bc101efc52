import GoldenCheck.Prime.Command
import GoldenCheck.Proofs.CommandLine.Arrangement
import GoldenCheck.Proofs.Number.Reading
import GoldenCheck.Proofs.Outcome

/-!
# Numbers on the command line

The command reads all its words before it prints anything.  If each of them is an integer, it prints a
sentence about each; otherwise it prints nothing and names the first that is none.  A negative number is a
word although it starts as an option does, so every integer within the limit can be given by its numeral.
-/

namespace GoldenCheck
namespace Prime

open CommandLine
open Numeral (Denotes Short)

/-! ## 1. Words -/

/-- An argument that does not start with a dash, or has digits only after it. -/
def NumberWord (t : Text) : Prop :=
  t.head? ≠ some dash ∨ ∃ ds : List Char, (∀ c ∈ ds, c.isDigit = true) ∧ t = Text.ofChars ('-' :: ds)

theorem withoutFinalNewline_eq_self {t : Text} (h : .char '\n' ∉ t) : withoutFinalNewline t = t := by
  fun_induction withoutFinalNewline t with
  | case1 => rfl
  | case2 => exact absurd List.mem_cons_self h
  | case3 => rfl
  | case4 p t _ ih => rw [ih fun hmem => h (List.mem_cons_of_mem p hmem)]

theorem isNegativeNumber_ofChars {c : Char} {ds : List Char} (h : ∀ d ∈ c :: ds, d.isDigit = true) :
    isNegativeNumber (Text.ofChars ('-' :: c :: ds)) = true := by
  have hnewline : .char '\n' ∉ Text.ofChars (c :: ds) := by
    intro hmem
    obtain ⟨d, hd, heq⟩ := List.mem_map.1 hmem
    have hdigit := h d hd
    rw [CodePoint.char.inj heq] at hdigit
    exact absurd hdigit (by decide)
  have hpoint : ∀ p ∈ Text.ofChars (c :: ds), isDigitPoint p = true := by
    intro p hp
    obtain ⟨d, hd, rfl⟩ := List.mem_map.1 hp
    change (digitValue? d.toNat).isSome = true
    rw [Numeral.digitValue?_of_isDigit (h d hd)]
    rfl
  have hrest : (Text.ofChars (c :: ds)).dropWhile isDigitPoint = [] := by
    rw [← List.append_nil (Text.ofChars (c :: ds)), List.dropWhile_append_of_pos hpoint]
    rfl
  rw [show Text.ofChars ('-' :: c :: ds) = dash :: Text.ofChars (c :: ds) from rfl, isNegativeNumber,
    withoutFinalNewline_eq_self hnewline, hrest]
  rfl

/-- A dash with digits after it is a word: it spells no option, and it is a negative number. -/
theorem classify_negative {ds : List Char} (h : ∀ c ∈ ds, c.isDigit = true) :
    CommandLine.classify numbersOptions (Text.ofChars ('-' :: ds)) =
      .ok (.word (Text.ofChars ('-' :: ds))) := by
  cases ds with
  | nil => rfl
  | cons c ds =>
    have hchar : ∀ {d : Char}, d.isDigit = false → c ≠ d := by
      intro d hd hc
      have hdigit := h c List.mem_cons_self
      rw [hc, hd] at hdigit
      contradiction
    have hletter : byLetter? numbersOptions (.char c) = none := by
      have hne : c ≠ 'h' := hchar (by decide)
      simp [byLetter?, numbersOptions, Opt.short?, Ne.symm hne]
    have hdash : CodePoint.char c ≠ dash := fun heq => hchar (by decide) (CodePoint.char.inj heq)
    have hspelled : spelled? numbersOptions (Text.ofChars ('-' :: c :: ds)) = none := by
      have hfind : (numbersOptions.find? fun o => o.long = Text.ofChars ('-' :: c :: ds)) = none := by
        rw [List.find?_eq_none]
        intro o ho hlong
        rw [List.mem_singleton.1 ho] at hlong
        have hsecond := (List.cons.inj (List.cons.inj (of_decide_eq_true hlong)).2).1
        exact hdash hsecond.symm
      simp only [spelled?, hfind]
      cases ds with
      | nil =>
        change (if dash = dash then _ else _) = _
        rw [if_pos rfl, hletter]
        rfl
      | cons d ds => rfl
    have hcut : cutAt (.char '=') (Text.ofChars ('-' :: c :: ds)) = none := by
      apply cutAt_of_notMem
      intro hmem
      obtain ⟨d, hd, heq⟩ := List.mem_map.1 hmem
      cases heq
      rcases List.mem_cons.1 hd with hd | hd
      · exact absurd hd (by decide)
      · exact absurd (h _ hd) (by decide)
    have hreadings : readings numbersOptions (Text.ofChars ('-' :: c :: ds)) = [] := by
      change (if CodePoint.char c = dash then _ else _) = _
      rw [if_neg hdash, hletter]
      rfl
    have hlong : Text.ofChars ('-' :: c :: ds) ≠ [dash] := by simp [Text.ofChars]
    have hhead : ¬ (Text.ofChars ('-' :: c :: ds)).head? ≠ some dash := not_not.2 rfl
    rw [CommandLine.classify, if_neg hhead]
    simp only [hspelled, if_neg hlong, withValue?, hcut, hreadings, undeclared,
      isNegativeNumber_ofChars h, Bool.true_or, if_true]

theorem NumberWord.classify_eq {t : Text} (h : NumberWord t) :
    CommandLine.classify numbersOptions t = .ok (.word t) := by
  rcases h with hword | ⟨ds, hds, rfl⟩
  · exact classify_word numbersOptions hword
  · exact classify_negative hds

theorem NumberWord.ne_separator {t : Text} (h : NumberWord t) : t ≠ separatorText := by
  rcases h with hword | ⟨ds, hds, rfl⟩
  · exact ne_separator_of_head? hword
  · intro heq
    cases ds with
    | nil => cases heq
    | cons c ds =>
      have hc := hds c List.mem_cons_self
      rw [CodePoint.char.inj (List.cons.inj (List.cons.inj heq).2).1] at hc
      exact absurd hc (by decide)

theorem slots_numberWords {ts : List Text} (h : ∀ t ∈ ts, NumberWord t) :
    slots numbersOptions ts = .ok (ts.map .word) := by
  induction ts with
  | nil => rfl
  | cons t ts ih =>
    have ht := h t List.mem_cons_self
    have hts := ih fun s hs => h s (List.mem_cons_of_mem t hs)
    exact slots_cons ht.ne_separator ht.classify_eq hts

/-- Words are parsed as the integers that they are read as. -/
theorem parseNumbers_eq {ts : List Text} (h : ∀ t ∈ ts, NumberWord t) :
    parseNumbers ts = readNumbers ts := by
  rw [parseNumbers, parse, slots_numberWords h]
  simp only [scan_words, List.nil_append, Parsed.ofScan, Parsed.fold, numbersStep]
  cases readNumbers ts <;> rfl

/-! ## 2. Reading all words -/

theorem readNumbers_of_denotes {ts : List Text} {ns : List Int} (h : List.Forall₂ Denotes ts ns) :
    readNumbers ts = .proceed ns := by
  induction h with
  | nil => rfl
  | cons hn _ ih => simp only [readNumbers, Numeral.read?_eq_some_iff.2 hn, ih]

theorem readNumbers_of_first {before after : List Text} {t : Text}
    (hbefore : ∀ s ∈ before, ∃ n, Denotes s n) (ht : ¬ ∃ n, Denotes t n) :
    readNumbers (before ++ t :: after) = .misuse (.invalidInteger "numbers" t) := by
  induction before with
  | nil =>
    have hnone : Numeral.read? t = none := by
      cases hread : Numeral.read? t with
      | none => rfl
      | some n => exact absurd ⟨n, Numeral.read?_eq_some_iff.1 hread⟩ ht
    simp only [List.nil_append, readNumbers, hnone]
  | cons s before ih =>
    obtain ⟨n, hn⟩ := hbefore s List.mem_cons_self
    have hrest := ih fun r hr => hbefore r (List.mem_cons_of_mem s hr)
    simp only [List.cons_append, readNumbers, Numeral.read?_eq_some_iff.2 hn, hrest]

/-! ## 3. What is printed -/

theorem describe_encodable (a : Int) : (describe a).Encodable := by
  have hstring : ∀ s : String, (Text.ofString s).Encodable := fun s => Text.encodable_ofChars s.toList
  have hnumeral : ∀ n : Nat, (Numeral.ofNat n).Encodable := fun n => Text.encodable_ofChars _
  unfold describe
  cases classify a <;> simp only [Text.encodable_append, hstring, hnumeral, and_self]

/-- The console of a command that describes integers and nothing else. -/
theorem describeAll_console (ns : List Int) :
    Console.ofTranscript (describeAll ns) = ⟨Text.lines (ns.map describe), [], .returned 0⟩ := by
  have hlines : Transcript.printLines (ns.map describe) = ⟨Text.lines (ns.map describe), .ok ()⟩ := by
    apply Transcript.printLines_of_encodable
    intro t ht
    obtain ⟨a, -, rfl⟩ := List.mem_map.1 ht
    exact describe_encodable a
  have hzero : (pure 0 : Transcript Nat) = ⟨[], .ok 0⟩ := rfl
  rw [describeAll, Transcript.bind_of_ok (by rw [hlines]), hlines, hzero, List.append_nil]
  rfl

theorem errorText_of_encodable {t : Text} (h : t.Encodable) : Console.errorText t = t := by
  obtain ⟨cs, rfl⟩ := h.exists_chars
  induction cs with
  | nil => rfl
  | cons c cs ih =>
    change [CodePoint.char c] ++ Console.errorText (Text.ofChars cs) = _
    rw [ih (Text.encodable_ofChars cs)]
    rfl

/-- The error output about an argument that is no integer: it quotes the argument. -/
def invalidText (t : Text) : Text :=
  numbersManual.usage ++ "small_prime.py: error: argument numbers: invalid int value: " ++ t.quoted ++
    "\n"

theorem misuse_invalidInteger (t : Text) :
    Console.misuse numbersManual (.invalidInteger "numbers" t) = ⟨[], invalidText t, .exited 2⟩ := by
  have hlead : Text.ofString "small_prime.py: error: argument numbers: invalid int value: " =
      numbersManual.program ++ Text.ofString ": error: " ++
        (Text.ofString "argument " ++ Text.ofString "numbers" ++ Text.ofString ": invalid int value: ") := by
    decide
  have hencodable : (invalidText t).Encodable := by
    simp only [invalidText, Text.encodable_append]
    exact ⟨⟨⟨Text.encodable_ofChars _, Text.encodable_ofChars _⟩, Text.encodable_ofChars _⟩,
      Text.encodable_ofChars _⟩
  have hmessage : numbersManual.usage ++ numbersManual.program ++ Text.ofString ": error: " ++
      (UsageError.invalidInteger "numbers" t).message ++ Text.ofString "\n" = invalidText t := by
    rw [invalidText, hlead, UsageError.message]
    simp only [List.append_assoc]
  rw [Console.misuse, hmessage, errorText_of_encodable hencodable]

/-! ## 4. The command -/

/-- The argument that an integer is given as. -/
def argument (a : Int) : Text := Text.ofChars (Numeral.ofInt a)

theorem argument_numberWord (a : Int) : NumberWord (argument a) := by
  have hdigits : ∀ c ∈ Numeral.digits a.natAbs, c.isDigit = true := fun c hc =>
    Numeral.isDigit_of_mem_digits hc
  unfold argument Numeral.ofInt
  split
  next hneg => exact .inr ⟨_, hdigits, rfl⟩
  next hneg =>
    left
    intro hdash
    cases hds : Numeral.digits a.natAbs with
    | nil =>
      rw [hds] at hdash
      cases hdash
    | cons c ds =>
      rw [hds] at hdash hdigits
      have hc := hdigits c List.mem_cons_self
      rw [CodePoint.char.inj (Option.some.inj hdash)] at hc
      exact absurd hc (by decide)

theorem numbersCommand_of_denotes {ts : List Text} {ns : List Int} (hne : ts ≠ [])
    (hwords : ∀ t ∈ ts, NumberWord t) (h : List.Forall₂ Denotes ts ns) :
    numbersCommand ts = ⟨Text.lines (ns.map describe), [], .returned 0⟩ := by
  have hns : ns ≠ [] := by
    intro hnil
    rw [hnil] at h
    exact hne (List.forall₂_nil_right_iff.1 h)
  rw [numbersCommand, parseNumbers_eq hwords, readNumbers_of_denotes h]
  simp only [if_neg hns, describeAll_console]

theorem numbersCommand_of_first {before after : List Text} {t : Text}
    (hwords : ∀ s ∈ before ++ t :: after, NumberWord s) (hbefore : ∀ s ∈ before, ∃ n, Denotes s n)
    (ht : ¬ ∃ n, Denotes t n) :
    numbersCommand (before ++ t :: after) =
      ⟨[], invalidText t, .exited 2⟩ := by
  rw [numbersCommand, parseNumbers_eq hwords, readNumbers_of_first hbefore ht]
  exact misuse_invalidInteger t

theorem exists_integers {ts : List Text} (h : ∀ t ∈ ts, ∃ n, Denotes t n) :
    ∃ ns, List.Forall₂ Denotes ts ns := by
  induction ts with
  | nil => exact ⟨[], .nil⟩
  | cons t ts ih =>
    obtain ⟨n, hn⟩ := h t List.mem_cons_self
    obtain ⟨ns, hns⟩ := ih fun s hs => h s (List.mem_cons_of_mem t hs)
    exact ⟨n :: ns, .cons hn hns⟩

/-- For arguments that are words, at least one: if all of them denote integers, the command prints the
sentences about these in order and returns 0; otherwise it prints nothing and exits with status 2, and the
error output quotes the first that denotes none.  The numeral of every integer within the limit is such a
word, and denotes that integer and no other. -/
theorem numbers_all_or_nothing :
    (∀ args : List Text, args ≠ [] → (∀ t ∈ args, NumberWord t) →
      (∀ ns, List.Forall₂ Denotes args ns →
        numbersCommand args = ⟨Text.lines (ns.map describe), [], .returned 0⟩) ∧
      ((¬ ∃ ns, List.Forall₂ Denotes args ns) →
        ∃ before t after, args = before ++ t :: after ∧ (∀ s ∈ before, ∃ n, Denotes s n) ∧
          (¬ ∃ n, Denotes t n) ∧ numbersCommand args = ⟨[], invalidText t, .exited 2⟩)) ∧
    ∀ a : Int, Short a → NumberWord (argument a) ∧ ∀ n, Denotes (argument a) n ↔ n = a := by
  refine ⟨fun args hne hwords => ⟨?_, ?_⟩, fun a hshort => ⟨argument_numberWord a, fun n => ?_⟩⟩
  · intro ns hns
    exact numbersCommand_of_denotes hne hwords hns
  · intro hnone
    rcases forall_or_first (fun t => ∃ n, Denotes t n) args with hall | ⟨before, t, after, rfl, hbefore, ht⟩
    · exact absurd (exists_integers hall) hnone
    · exact ⟨before, t, after, rfl, hbefore, ht, numbersCommand_of_first hwords hbefore ht⟩
  · have ha : Denotes (argument a) a := Numeral.denotes_ofInt hshort
    constructor
    · intro hn
      exact hn.unique ha
    · intro hn
      rw [hn]
      exact ha

/-- White space, signs, an underscore and a leading zero are read; a word that ends in an underscore is
quoted, and the good one after it leaves no trace. -/
theorem mixedWords_all_or_nothing :
    numbersCommand [" +0_7\n", "-1"] =
        ⟨"7 is prime\n4294967295 is out of range (only 0..10 are checked)\n", [], .returned 0⟩ ∧
      numbersCommand ["7_", "-1"] = ⟨[], invalidText "7_", .exited 2⟩ := by
  have hminus : NumberWord "-1" := .inr ⟨['1'], by simp, rfl⟩
  have hbad : ¬ ∃ n, Denotes "7_" n := by
    rintro ⟨n, hn⟩
    have hread : Numeral.read? "7_" = none := by decide
    rw [Numeral.read?_eq_some_iff.2 hn] at hread
    cases hread
  obtain ⟨hcommand, -⟩ := numbers_all_or_nothing
  have hwords : ∀ s : Text, s.head? ≠ some dash → ∀ t ∈ [s, "-1"], NumberWord t := fun s hs =>
    List.forall_mem_cons.2 ⟨.inl hs, List.forall_mem_singleton.2 hminus⟩
  obtain ⟨hall, -⟩ := hcommand [" +0_7\n", "-1"] (by simp) (hwords _ (by decide))
  obtain ⟨-, hnone⟩ := hcommand ["7_", "-1"] (by simp) (hwords _ (by decide))
  have hseven : Denotes " +0_7\n" 7 := Numeral.read?_eq_some_iff.1 (by decide)
  have hone : Denotes "-1" (-1) := Numeral.read?_eq_some_iff.1 (by decide)
  have hlines : Text.lines ([7, -1].map describe) =
      Text.ofString "7 is prime\n4294967295 is out of range (only 0..10 are checked)\n" := by
    decide +kernel
  refine ⟨(hall [7, -1] (.cons hseven (.cons hone .nil))).trans (by rw [hlines]), ?_⟩
  obtain ⟨before, t, after, hargs, hbefore, -, hconsole⟩ := hnone (by
    rintro ⟨ns, hns⟩
    cases hns with
    | cons hfirst _ => exact hbad ⟨_, hfirst⟩)
  rw [hconsole]
  -- Nothing comes before the first word.
  cases before with
  | nil => rw [(List.cons.inj hargs).1]
  | cons s before =>
    rw [← (List.cons.inj hargs).1] at hbefore
    exact absurd (hbefore _ List.mem_cons_self) hbad

end Prime
end GoldenCheck
