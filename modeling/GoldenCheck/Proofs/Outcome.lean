import GoldenCheck.CommandLine.Console
import GoldenCheck.Proofs.Text.Encoding
import Mathlib.Tactic.Common

/-!
# Computations that fail and computations that print

A sequence of steps succeeds if each of its steps does, and fails with the fault of the first step
that does not.  What is printed is the lines of the steps up to there.
-/

namespace GoldenCheck

/-! ## 1. Steps that fail -/

@[simp] theorem ok_bind {ε α β : Type} (a : α) (f : α → Except ε β) : Except.ok a >>= f = f a := rfl

@[simp] theorem error_bind {ε α β : Type} (e : ε) (f : α → Except ε β) :
    Except.error e >>= f = .error e := rfl

theorem bind_eq_ok_iff {ε α β : Type} {x : Except ε α} {f : α → Except ε β} {b : β} :
    x >>= f = .ok b ↔ ∃ a, x = .ok a ∧ f a = .ok b := by
  cases x <;> simp

theorem bind_eq_error_iff {ε α β : Type} {x : Except ε α} {f : α → Except ε β} {e : ε} :
    x >>= f = .error e ↔ x = .error e ∨ ∃ a, x = .ok a ∧ f a = .error e := by
  cases x <;> simp

theorem map_eq_ok_iff {ε α β : Type} {x : Except ε α} {f : α → β} {b : β} :
    x.map f = .ok b ↔ ∃ a, x = .ok a ∧ f a = b := by
  cases x <;> simp [Except.map]

theorem map_eq_error_iff {ε α β : Type} {x : Except ε α} {f : α → β} {e : ε} :
    x.map f = .error e ↔ x = .error e := by
  cases x <;> simp [Except.map]

theorem mapError_eq_ok_iff {ε ε' α : Type} {x : Except ε α} {f : ε → ε'} {a : α} :
    x.mapError f = .ok a ↔ x = .ok a := by
  cases x <;> simp [Except.mapError]

theorem mapError_eq_error_iff {ε ε' α : Type} {x : Except ε α} {f : ε → ε'} {e : ε'} :
    x.mapError f = .error e ↔ ∃ r, x = .error r ∧ f r = e := by
  cases x <;> simp [Except.mapError]

instance decidableExistsOk {ε α : Type} (x : Except ε α) : Decidable (∃ a, x = .ok a) :=
  match x with
  | .ok a => .isTrue ⟨a, rfl⟩
  | .error _ => .isFalse fun ⟨_, h⟩ => nomatch h

/-- Either all elements have a property or there is a first one without. -/
theorem forall_or_first {α : Type} (P : α → Prop) (xs : List α) :
    (∀ x ∈ xs, P x) ∨
      ∃ before x after, xs = before ++ x :: after ∧ (∀ b ∈ before, P b) ∧ ¬ P x := by
  induction xs with
  | nil => exact .inl nofun
  | cons x xs ih =>
    by_cases hx : P x
    · rcases ih with hall | ⟨before, y, after, rfl, hbefore, hy⟩
      · exact .inl (List.forall_mem_cons.2 ⟨hx, hall⟩)
      · exact .inr ⟨x :: before, y, after, rfl, List.forall_mem_cons.2 ⟨hx, hbefore⟩, hy⟩
    · exact .inr ⟨[], x, xs, rfl, nofun, hx⟩

/-! ## 2. Lines that are printed -/

theorem Text.exists_encodeError {t : Text} (h : ¬ t.Encodable) :
    ∃ e, Utf8.encodeError? t = some e := by
  cases he : Utf8.encodeError? t with
  | none => exact absurd ((Utf8.encodeError?_eq_none_iff t).1 he) h
  | some e => exact ⟨e, rfl⟩

/-- The texts, each ended as a line. -/
def Text.lines (ts : List Text) : Text := ts.flatMap fun t => t ++ [.char '\n']

theorem Text.lines_append (ss ts : List Text) :
    Text.lines (ss ++ ts) = Text.lines ss ++ Text.lines ts :=
  List.flatMap_append

/-- A text is cut in one way only at the first of a code point. -/
theorem Text.cut_unique {p : CodePoint} {s s' t t' : Text} (hs : p ∉ s) (hs' : p ∉ s')
    (h : s ++ p :: t = s' ++ p :: t') : s = s' ∧ t = t' := by
  -- Walk along both texts; the code point cannot come earlier in one than in the other.
  induction s generalizing s' with
  | nil =>
    cases s' with
    | nil => exact ⟨rfl, (List.cons.inj h).2⟩
    | cons q s' => exact absurd ((List.cons.inj h).1 ▸ List.mem_cons_self) hs'
  | cons q s ih =>
    cases s' with
    | nil => exact absurd ((List.cons.inj h).1 ▸ List.mem_cons_self) hs
    | cons q' s' =>
      obtain ⟨rfl, htail⟩ := List.cons.inj h
      obtain ⟨rfl, rfl⟩ := ih (fun hm => hs (List.mem_cons_of_mem _ hm))
        (fun hm => hs' (List.mem_cons_of_mem _ hm)) htail
      exact ⟨rfl, rfl⟩

/-- Lines without a line feed in them can be told from their text. -/
theorem Text.lines_injective {ss ts : List Text} (hss : ∀ s ∈ ss, .char '\n' ∉ s)
    (hts : ∀ t ∈ ts, .char '\n' ∉ t) (h : Text.lines ss = Text.lines ts) : ss = ts := by
  have hcons : ∀ (t : Text) (ts : List Text),
      Text.lines (t :: ts) = t ++ .char '\n' :: Text.lines ts := by
    intro t ts
    simp [Text.lines]
  induction ss generalizing ts with
  | nil =>
    cases ts with
    | nil => rfl
    | cons t ts =>
      rw [hcons] at h
      simp [Text.lines] at h
  | cons s ss ih =>
    cases ts with
    | nil =>
      rw [hcons] at h
      simp [Text.lines] at h
    | cons t ts =>
      rw [hcons, hcons] at h
      obtain ⟨rfl, hrest⟩ := Text.cut_unique (hss s List.mem_cons_self) (hts t List.mem_cons_self) h
      rw [ih (fun r hr => hss r (List.mem_cons_of_mem _ hr))
        (fun r hr => hts r (List.mem_cons_of_mem _ hr)) hrest]

namespace Transcript

variable {α β : Type}

theorem bind_of_ok {x : Transcript α} {a : α} (h : x.result = .ok a) (f : α → Transcript β) :
    x >>= f = ⟨x.printed ++ (f a).printed, (f a).result⟩ := by
  change x.andThen f = _
  simp only [andThen, h]

theorem bind_of_error {x : Transcript α} {e : Fault} (h : x.result = .error e)
    (f : α → Transcript β) : x >>= f = ⟨x.printed, .error e⟩ := by
  change x.andThen f = _
  simp only [andThen, h]

theorem printLine_of_encodable {t : Text} (h : t.Encodable) :
    printLine t = ⟨Text.lines [t], .ok ()⟩ := by
  simp only [printLine, (Utf8.encodeError?_eq_none_iff t).2 h]
  simp [Text.lines]

theorem printLine_of_error {t : Text} {e : Utf8.EncodeError} (h : Utf8.encodeError? t = some e) :
    printLine t = ⟨[], .error (.unencodable e)⟩ := by
  simp only [printLine, h]

theorem printLines_of_encodable {ts : List Text} (h : ∀ t ∈ ts, t.Encodable) :
    printLines ts = ⟨Text.lines ts, .ok ()⟩ := by
  induction ts with
  | nil => rfl
  | cons t ts ih =>
    have ht := printLine_of_encodable (h t List.mem_cons_self)
    have hts := ih fun s hs => h s (List.mem_cons_of_mem _ hs)
    rw [printLines, bind_of_ok (by rw [ht]), ht, hts]
    simp [Text.lines]

/-- Lines are printed up to the first that has no encoding. -/
theorem printLines_of_error {before after : List Text} {t : Text} {e : Utf8.EncodeError}
    (hbefore : ∀ s ∈ before, s.Encodable) (ht : Utf8.encodeError? t = some e) :
    printLines (before ++ t :: after) = ⟨Text.lines before, .error (.unencodable e)⟩ := by
  induction before with
  | nil => rw [List.nil_append, printLines, bind_of_error (by rw [printLine_of_error ht]),
      printLine_of_error ht]; rfl
  | cons s before ih =>
    -- A line that was printed stays, also when one after it fails.
    have hs := printLine_of_encodable (hbefore s List.mem_cons_self)
    have hrest := ih fun r hr => hbefore r (List.mem_cons_of_mem _ hr)
    rw [List.cons_append, printLines, bind_of_ok (by rw [hs]), hs, hrest]
    simp [Text.lines]

end Transcript

theorem Console.returned_iff {x : Transcript Nat} {s : Nat} :
    (Console.ofTranscript x).ending = .returned s ↔ x.result = .ok s := by
  unfold Console.ofTranscript
  cases x.result <;> simp

theorem Console.failed_iff {x : Transcript Nat} {f : Fault} :
    (Console.ofTranscript x).ending = .failed f ↔ x.result = .error f := by
  unfold Console.ofTranscript
  cases x.result <;> simp

end GoldenCheck
