import GoldenCheck.Json.Value
import Mathlib.Data.List.Induction
import Mathlib.Data.List.Nodup

/-!
# Fields after insertion

Pairs are inserted one after the other.  A name keeps the place at which it first came and has the value
that came last, so that pairs with different names are left as they are.
-/

namespace GoldenCheck
namespace Json
namespace Fields

/-! ## 1. One pair -/

theorem names_insert (name : Text) (v : Value) (fs : Fields) :
    (insert name v fs).map Prod.fst =
      if name ∈ fs.map Prod.fst then fs.map Prod.fst else fs.map Prod.fst ++ [name] := by
  induction fs with
  | nil => rfl
  | cons f fs ih =>
    rw [insert]
    split
    next hf => rw [if_pos (by simp [hf])]; rfl
    next hf =>
      simp only [List.map_cons, List.mem_cons, ih, Ne.symm hf, false_or]
      split <;> rfl

theorem insert_of_notMem {name : Text} {fs : Fields} (h : name ∉ fs.map Prod.fst) (v : Value) :
    insert name v fs = fs ++ [(name, v)] := by
  induction fs with
  | nil => rfl
  | cons f fs ih =>
    rw [List.map_cons, List.mem_cons, not_or] at h
    rw [insert, if_neg (Ne.symm h.1), ih h.2, List.cons_append]

theorem mem_insert {fs : Fields} (h : (fs.map Prod.fst).Nodup) {name n : Text} {v w : Value} :
    (n, w) ∈ insert name v fs ↔ n = name ∧ w = v ∨ n ≠ name ∧ (n, w) ∈ fs := by
  induction fs with
  | nil => simp [insert]
  | cons f fs ih =>
    obtain ⟨m, u⟩ := f
    obtain ⟨hm, hfs⟩ := List.nodup_cons.1 h
    rw [insert]
    split
    next hname =>
      subst hname
      -- The name does not come again behind its first place.
      have hrest : (n, w) ∈ fs → n ≠ m := by
        rintro hmem rfl
        exact hm (List.mem_map.2 ⟨(n, w), hmem, rfl⟩)
      simp only [List.mem_cons, Prod.mk.injEq]
      constructor
      · rintro (hhere | hmem)
        · exact .inl hhere
        · exact .inr ⟨hrest hmem, .inr hmem⟩
      · rintro (hhere | ⟨hne, ⟨rfl, -⟩ | hmem⟩)
        · exact .inl hhere
        · exact absurd rfl hne
        · exact .inr hmem
    next hname =>
      simp only [List.mem_cons, ih hfs, Prod.mk.injEq]
      constructor
      · rintro (⟨rfl, rfl⟩ | ⟨rfl, rfl⟩ | ⟨hne, hmem⟩)
        · exact .inr ⟨hname, .inl ⟨rfl, rfl⟩⟩
        · exact .inl ⟨rfl, rfl⟩
        · exact .inr ⟨hne, .inr hmem⟩
      · rintro (hhere | ⟨hne, hfirst | hmem⟩)
        · exact .inr (.inl hhere)
        · exact .inl hfirst
        · exact .inr (.inr ⟨hne, hmem⟩)

theorem mem_of_get? {name : Text} {v : Value} {fs : Fields} (h : get? name fs = some v) :
    (name, v) ∈ fs := by
  induction fs with
  | nil => contradiction
  | cons f fs ih =>
    rw [get?] at h
    split at h
    next hname =>
      cases h
      rw [← hname]
      exact List.mem_cons_self
    next => exact List.mem_cons_of_mem f (ih h)

/-! ## 2. All pairs -/

theorem ofPairs_concat (ps : List (Text × Value)) (p : Text × Value) :
    ofPairs (ps ++ [p]) = insert p.1 p.2 (ofPairs ps) := by
  simp only [ofPairs, List.foldl_append, List.foldl_cons, List.foldl_nil]

/-- Each name stands where it first came. -/
theorem names_ofPairs (ps : List (Text × Value)) :
    (ofPairs ps).map Prod.fst = (ps.map Prod.fst).eraseDups := by
  -- From the end, since a pair is inserted after those before it.
  induction ps using List.reverseRecOn with
  | nil => rfl
  | append_singleton ps p ih =>
    rw [ofPairs_concat, names_insert, ih, List.map_append, List.map_singleton,
      List.eraseDups_append]
    simp only [List.mem_eraseDups]
    split
    next hmem => simp [List.removeAll, hmem]
    next hmem => simp [List.removeAll, hmem, List.eraseDups_cons]

theorem nodup_names_ofPairs (ps : List (Text × Value)) : ((ofPairs ps).map Prod.fst).Nodup := by
  induction ps using List.reverseRecOn with
  | nil => exact List.nodup_nil
  | append_singleton ps p ih =>
    rw [ofPairs_concat, names_insert]
    split
    next => exact ih
    next hmem =>
      rw [← List.concat_eq_append]
      exact ih.concat hmem

/-- The value of a name is the one with which it came last. -/
theorem mem_ofPairs {ps : List (Text × Value)} {name : Text} {v : Value} :
    (name, v) ∈ ofPairs ps ↔
      ∃ before after, ps = before ++ (name, v) :: after ∧ name ∉ after.map Prod.fst := by
  induction ps using List.reverseRecOn with
  | nil => simp [ofPairs]
  | append_singleton ps p ih =>
    rw [ofPairs_concat, mem_insert (nodup_names_ofPairs ps), ih]
    constructor
    · rintro (⟨rfl, rfl⟩ | ⟨hne, before, after, rfl, hafter⟩)
      · exact ⟨ps, [], rfl, List.not_mem_nil⟩
      · refine ⟨before, after ++ [p], by simp, ?_⟩
        simp only [List.map_append, List.map_singleton, List.mem_append, List.mem_singleton, not_or]
        exact ⟨hafter, hne⟩
    · rintro ⟨before, after, hps, hafter⟩
      -- The last pair is the one in question, or it comes behind it.
      rcases List.eq_nil_or_concat after with rfl | ⟨after, q, rfl⟩
      · have hlast := List.append_inj_right' hps rfl
        cases List.cons.inj hlast |>.1
        exact .inl ⟨rfl, rfl⟩
      · rw [List.concat_eq_append, ← List.cons_append, ← List.append_assoc] at hps
        obtain ⟨rfl, hlast⟩ := List.append_inj' hps rfl
        obtain ⟨rfl, -⟩ := List.cons.inj hlast
        simp only [List.concat_eq_append, List.map_append, List.map_singleton, List.mem_append,
          List.mem_singleton, not_or] at hafter
        exact .inr ⟨hafter.2, before, after, rfl, hafter.1⟩

theorem ofPairs_of_nodup {ps : List (Text × Value)} (h : (ps.map Prod.fst).Nodup) :
    ofPairs ps = ps := by
  induction ps using List.reverseRecOn with
  | nil => rfl
  | append_singleton ps p ih =>
    rw [List.map_append, List.map_singleton, ← List.concat_eq_append, List.nodup_concat] at h
    rw [ofPairs_concat, ih h.2, insert_of_notMem h.1]

/-- Each name once, at the place where it first came, with the value with which it came last. -/
structure LastWins (ps : List (Text × Value)) (fs : Fields) : Prop where
  distinct : (fs.map Prod.fst).Nodup
  names : fs.map Prod.fst = (ps.map Prod.fst).eraseDups
  value : ∀ name v, (name, v) ∈ fs ↔
    ∃ before after, ps = before ++ (name, v) :: after ∧ name ∉ after.map Prod.fst

theorem lastWins_ofPairs (ps : List (Text × Value)) : LastWins ps (ofPairs ps) :=
  ⟨nodup_names_ofPairs ps, names_ofPairs ps, fun _ _ => mem_ofPairs⟩

end Fields
end Json
end GoldenCheck
