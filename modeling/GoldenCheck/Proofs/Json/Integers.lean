import GoldenCheck.Json.Display
import GoldenCheck.Json.Reader
import GoldenCheck.Proofs.Json.Insertion
import GoldenCheck.Proofs.Number.Numeral

/-!
# Integers that are read are short

The reader refuses an integer with too many digits, so every integer that it takes off a text, alone or
at any depth of an array or an object, is one that can be written again.  Nothing else keeps a value from
having a text, so that what is read can be shown.
-/

namespace GoldenCheck
namespace Json

open Numeral (Short)

/-! ## 1. Scalars -/

theorem wholePart_digits {s whole t : List Char} (h : wholePart s = some (whole, t)) :
    ∀ c ∈ whole, c.isDigit = true := by
  cases s with
  | nil => contradiction
  | cons c s =>
    simp only [wholePart] at h
    split at h
    · cases h
      intro d hd
      rw [List.mem_singleton.1 hd]
      decide
    · split at h
      next hc =>
        cases h
        intro d hd
        rcases List.mem_cons.1 hd with rfl | hd
        · exact hc
        · exact List.all_eq_true.1 List.all_takeWhile d hd
      next => contradiction

/-- What a scalar can be: no container, and an integer only if it is short. -/
def IsScalar : Value → Prop
  | .int n => Short n
  | .array _ | .object _ => False
  | _ => True

theorem number_isScalar {s r : List Char} {v : Value} (h : number s = .ok (v, r)) : IsScalar v := by
  unfold number at h
  split at h
  · contradiction
  next whole t hw =>
    simp only at h
    split at h
    · split at h
      next hlen =>
        cases h
        change Short _
        -- The limit counts the digits as they are written, which bounds the value.
        rw [Numeral.short_iff, DecimalText.natAbs_signed]
        calc
          DecimalText.value whole < 10 ^ whole.length := DecimalText.value_lt (wholePart_digits hw)
          _ ≤ 10 ^ Numeral.digitLimit := Nat.pow_le_pow_right (by decide) hlen
      next => contradiction
    · cases h
      trivial

theorem literal?_isScalar {s r : List Char} {v : Value} (h : literal? s = some (v, r)) :
    IsScalar v := by
  obtain ⟨l, hl, hs⟩ := List.exists_of_findSome?_eq_some h
  obtain ⟨t, -, ht⟩ := Option.map_eq_some_iff.1 hs
  have hv : l.2 = v := congrArg Prod.fst ht
  simp only [literals, List.mem_cons, List.not_mem_nil, or_false] at hl
  rcases hl with rfl | rfl | rfl | rfl | rfl | rfl <;> subst hv <;> trivial

theorem scalar_isScalar {s r : List Char} {v : Value} (h : scalar s = .ok (v, r)) : IsScalar v := by
  unfold scalar at h
  split at h
  · split at h
    · cases h
      trivial
    · contradiction
  · split at h
    next hl => exact literal?_isScalar (hl.trans (congrArg some (Except.ok.inj h)))
    next => exact number_isScalar h

/-! ## 2. Items and fields -/

/-- Each item of an array was read as a value. -/
theorem items_read {value : List Char → Read Value} {width : Nat} {s r : List Char}
    {vs : List Value} (h : items value width s = .ok (vs, r)) :
    ∀ v ∈ vs, ∃ t u, value t = .ok (v, u) := by
  -- The width bounds how many items are still to come.
  induction width generalizing s vs r with
  | zero => contradiction
  | succ width ih =>
    simp only [items] at h
    split at h
    · contradiction
    next v t hv =>
      split at h
      · cases h
        intro w hw
        rw [List.mem_singleton.1 hw]
        exact ⟨s, t, hv⟩
      · split at h
        next hrest =>
          cases h
          intro w hw
          rcases List.mem_cons.1 hw with rfl | hw
          · exact ⟨s, t, hv⟩
          · exact ih hrest w hw
        next => contradiction
      · contradiction

theorem array_eq_ok {value : List Char → Read Value} {width : Nat} {s r : List Char} {v : Value}
    (h : array value width s = .ok (v, r)) :
    ∃ vs, v = .array vs ∧ ∀ w ∈ vs, ∃ t u, value t = .ok (w, u) := by
  unfold array at h
  split at h
  · cases h
    exact ⟨[], rfl, nofun⟩
  · split at h
    next hi =>
      cases h
      exact ⟨_, rfl, items_read hi⟩
    next => contradiction

theorem field_read {value : List Char → Read Value} {s r : List Char} {f : Text × Value}
    (h : field value s = .ok (f, r)) : ∃ t u, value t = .ok (f.2, u) := by
  unfold field at h
  split at h
  · split at h
    · contradiction
    · split at h
      · split at h
        next hv =>
          cases h
          exact ⟨_, _, hv⟩
        next => contradiction
      · contradiction
  · contradiction

/-- The value of each field of an object was read as a value. -/
theorem members_read {value : List Char → Read Value} {width : Nat} {s r : List Char}
    {fs : List (Text × Value)} (h : members value width s = .ok (fs, r)) :
    ∀ f ∈ fs, ∃ t u, value t = .ok (f.2, u) := by
  -- As with the items of an array, the width bounds how many fields are still to come.
  induction width generalizing s fs r with
  | zero => contradiction
  | succ width ih =>
    simp only [members] at h
    split at h
    · contradiction
    next f t hf =>
      split at h
      · cases h
        intro g hg
        rw [List.mem_singleton.1 hg]
        exact field_read hf
      · split at h
        next hrest =>
          cases h
          intro g hg
          rcases List.mem_cons.1 hg with rfl | hg
          · exact field_read hf
          · exact ih hrest g hg
        next => contradiction
      · contradiction

theorem object_eq_ok {value : List Char → Read Value} {width : Nat} {s r : List Char} {v : Value}
    (h : object value width s = .ok (v, r)) :
    ∃ fs, v = .object fs ∧ ∀ f ∈ fs, ∃ t u, value t = .ok (f.2, u) := by
  unfold object at h
  split at h
  · cases h
    exact ⟨[], rfl, List.forall_mem_nil _⟩
  · split at h
    next hm =>
      cases h
      refine ⟨_, rfl, fun f hf => members_read hm f ?_⟩
      -- Inserting the fields may lose some of them but makes no new ones.
      obtain ⟨before, after, rfl, -⟩ := Fields.mem_ofPairs.1 hf
      simp
    next => contradiction

/-! ## 3. Integers at any depth -/

mutual

/-- The integers in a value, at any depth. -/
def Value.integers : Value → List Int
  | .int n => [n]
  | .array vs => itemIntegers vs
  | .object fs => fieldIntegers fs
  | _ => []

def itemIntegers : List Value → List Int
  | [] => []
  | v :: vs => v.integers ++ itemIntegers vs

def fieldIntegers : List (Text × Value) → List Int
  | [] => []
  | (_, v) :: fs => v.integers ++ fieldIntegers fs

end

theorem itemIntegers_eq (vs : List Value) : itemIntegers vs = vs.flatMap Value.integers := by
  induction vs with
  | nil => rw [itemIntegers, List.flatMap_nil]
  | cons v vs ih => rw [itemIntegers, ih, List.flatMap_cons]

theorem fieldIntegers_eq (fs : List (Text × Value)) :
    fieldIntegers fs = fs.flatMap fun f => f.2.integers := by
  induction fs with
  | nil => rw [fieldIntegers, List.flatMap_nil]
  | cons f fs ih => rw [fieldIntegers, ih, List.flatMap_cons]

/-- No integer in the value is too long to be written. -/
def Value.Short (v : Value) : Prop := ∀ n ∈ v.integers, Numeral.Short n

instance (v : Value) : Decidable v.Short :=
  inferInstanceAs (Decidable (∀ n ∈ v.integers, Numeral.Short n))

theorem Value.short_int_iff {n : Int} : (Value.int n).Short ↔ Numeral.Short n := by
  simp [Value.Short, Value.integers]

theorem Value.short_array_iff {vs : List Value} : (Value.array vs).Short ↔ ∀ v ∈ vs, v.Short := by
  simp only [Value.Short, Value.integers, itemIntegers_eq, List.mem_flatMap]
  constructor
  · intro h v hv n hn
    exact h n ⟨v, hv, hn⟩
  · rintro h n ⟨v, hv, hn⟩
    exact h v hv n hn

theorem Value.short_object_iff {fs : List (Text × Value)} :
    (Value.object fs).Short ↔ ∀ f ∈ fs, f.2.Short := by
  simp only [Value.Short, Value.integers, fieldIntegers_eq, List.mem_flatMap]
  constructor
  · intro h f hf n hn
    exact h n ⟨f, hf, hn⟩
  · rintro h n ⟨f, hf, hn⟩
    exact h f hf n hn

theorem IsScalar.short {v : Value} (h : IsScalar v) : v.Short := by
  cases v with
  | int n => exact Value.short_int_iff.2 h
  | array vs => exact h.elim
  | object fs => exact h.elim
  | null | bool | float | string => simp [Value.Short, Value.integers]

theorem value_short {width depth : Nat} {s r : List Char} {v : Value}
    (h : value width depth s = .ok (v, r)) : v.Short := by
  induction depth generalizing s v r with
  | zero =>
    -- No depth is left for arrays and objects.
    simp only [value] at h
    split at h
    · contradiction
    · contradiction
    · exact (scalar_isScalar h).short
  | succ depth ih =>
    simp only [value] at h
    split at h
    · obtain ⟨vs, rfl, hread⟩ := array_eq_ok h
      refine Value.short_array_iff.2 fun w hw => ?_
      obtain ⟨t, u, hvalue⟩ := hread w hw
      exact ih hvalue
    · obtain ⟨fs, rfl, hread⟩ := object_eq_ok h
      refine Value.short_object_iff.2 fun f hf => ?_
      obtain ⟨t, u, hvalue⟩ := hread f hf
      exact ih hvalue
    · exact (scalar_isScalar h).short

theorem read_short {text : List Char} {v : Value} (h : read text = .ok v) : v.Short := by
  unfold read at h
  split at h
  next hv =>
    cases h
    unfold document at hv
    split at hv
    · contradiction
    · split at hv
      · contradiction
      next hvalue =>
        split at hv
        · cases hv
          exact value_short hvalue
        · contradiction
  next => contradiction

/-- The integers of an array that is read are short. -/
theorem read_array {text : List Char} {vs : List Value} (h : read text = .ok (.array vs)) {n : Int}
    (hn : .int n ∈ vs) : Short n :=
  Value.short_int_iff.1 (Value.short_array_iff.1 (read_short h) _ hn)

/-! ## 4. Showing a value -/

mutual

theorem display?_isSome (v : Value) (h : ∀ n ∈ v.integers, Short n) : v.display?.isSome = true := by
  cases v with
  | int n =>
    have hn : Short n := h n (by simp [Value.integers])
    rw [Value.display?, Numeral.ofInt?_eq_some_iff.2 ⟨hn, rfl⟩]
    rfl
  | array vs =>
    rw [Value.integers] at h
    rw [Value.display?, Option.isSome_map]
    exact displayItems?_isSome vs h
  | object fs =>
    rw [Value.integers] at h
    rw [Value.display?, Option.isSome_map]
    exact displayFields?_isSome fs h
  | null | bool | float | string => rfl

theorem displayItems?_isSome (vs : List Value) (h : ∀ n ∈ itemIntegers vs, Short n) :
    (displayItems? vs).isSome = true := by
  cases vs with
  | nil => rfl
  | cons v vs =>
    rw [itemIntegers, List.forall_mem_append] at h
    obtain ⟨t, ht⟩ := Option.isSome_iff_exists.1 (display?_isSome v h.1)
    obtain ⟨ts, hts⟩ := Option.isSome_iff_exists.1 (displayItems?_isSome vs h.2)
    rw [displayItems?, ht, hts]
    rfl

theorem displayFields?_isSome (fs : List (Text × Value)) (h : ∀ n ∈ fieldIntegers fs, Short n) :
    (displayFields? fs).isSome = true := by
  cases fs with
  | nil => rfl
  | cons f fs =>
    obtain ⟨name, v⟩ := f
    rw [fieldIntegers, List.forall_mem_append] at h
    obtain ⟨t, ht⟩ := Option.isSome_iff_exists.1 (display?_isSome v h.1)
    obtain ⟨ts, hts⟩ := Option.isSome_iff_exists.1 (displayFields?_isSome fs h.2)
    rw [displayFields?, ht, hts]
    rfl

end

/-- A value without integers that are too long has a text. -/
theorem Value.Short.exists_display {v : Value} (h : v.Short) : ∃ t, v.display? = some t :=
  Option.isSome_iff_exists.1 (display?_isSome v h)

end Json
end GoldenCheck
