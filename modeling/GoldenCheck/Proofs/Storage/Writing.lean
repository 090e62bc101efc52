import GoldenCheck.Proofs.Storage.Locating
import Mathlib.Tactic.Common

/-!
# What a write changes

A written file is found at its location and nothing else is.  Its directory lists one name more if the
file is new, after all the others.  Writing what is there already changes nothing.
-/

namespace GoldenCheck
namespace FileSystem

/-! ## 1. Entries -/

theorem find?_putIn (l m : Location) (x : Entry) (es : List (Location × Entry)) :
    find? m (putIn l x es) = if m = l then some x else find? m es := by
  -- Follows `putIn`, which stops at the first entry with the location `l`.
  induction es with
  | nil => simp [putIn, find?, eq_comm]
  | cons e es ih =>
    simp only [putIn]
    split
    next he =>
      subst he
      by_cases hm : m = e.1
      · simp [find?, hm]
      · simp [find?, hm, Ne.symm hm]
    next he =>
      simp only [find?, ih]
      by_cases hm : m = l
      · subst hm
        simp [he]
      · simp [hm]

theorem lookup?_put (fs : FileSystem) (l m : Location) (x : Entry) (h : Location.Valid l) :
    (fs.put l x h).lookup? m = if m = l then some x else fs.lookup? m := by
  by_cases hm : m = []
  · subst hm
    simp [lookup?, Ne.symm h.1]
  · simp [lookup?, hm, put, find?_putIn]

theorem find?_eq_none_iff (l : Location) (es : List (Location × Entry)) :
    find? l es = none ↔ l ∉ es.map Prod.fst := by
  induction es with
  | nil => simp [find?]
  | cons e es ih =>
    simp only [find?, List.map_cons, List.mem_cons, not_or]
    split
    next h => simp [h]
    next h => simp [ih, Ne.symm h]

theorem mem_of_find? {l : Location} {x : Entry} {es : List (Location × Entry)}
    (h : find? l es = some x) : (l, x) ∈ es := by
  induction es with
  | nil => contradiction
  | cons e es ih =>
    rw [find?] at h
    split at h
    next he =>
      cases h
      rw [← he]
      exact List.mem_cons_self
    next => exact List.mem_cons_of_mem e (ih h)

theorem valid_of_lookup? {fs : FileSystem} {l : Location} {x : Entry} (h : fs.lookup? l = some x)
    (hl : l ≠ []) : Location.Valid l := by
  rw [lookup?, if_neg hl] at h
  exact fs.valid (l, x) (mem_of_find? h)

theorem putIn_of_find? {l : Location} {x : Entry} {es : List (Location × Entry)}
    (h : find? l es = some x) : putIn l x es = es := by
  induction es with
  | nil => contradiction
  | cons e es ih =>
    simp only [find?] at h
    simp only [putIn]
    split
    next he =>
      rw [if_pos he, Option.some.injEq] at h
      rw [← he, ← h]
    next he =>
      rw [if_neg he] at h
      rw [ih h]

/-- Putting what is there already changes nothing. -/
theorem put_self {fs : FileSystem} {l : Location} {x : Entry} (h : Location.Valid l)
    (he : fs.lookup? l = some x) : fs.put l x h = fs := by
  -- The fields other than the entries are carried over by `put` as they are.
  rw [lookup?, if_neg h.1] at he
  cases fs with
  | mk entries workingDirectory distinct valid =>
    simp only [put, putIn_of_find? he]

/-! ## 2. Listings -/

theorem mem_namesIn {fs : FileSystem} {up : Location} {n : FileName} :
    n ∈ fs.namesIn up ↔ fs.lookup? (n :: up) ≠ none := by
  rw [lookup?, if_neg (List.cons_ne_nil n up), ne_eq, find?_eq_none_iff, not_not, namesIn,
    List.mem_filterMap, List.mem_map]
  constructor
  · rintro ⟨⟨l, x⟩, hmem, hn⟩
    cases l with
    | nil => simp [nameIn] at hn
    | cons m l =>
      simp only [nameIn] at hn
      split at hn
      next hl => cases hn; exact ⟨_, hmem, by rw [hl]⟩
      next => contradiction
  · rintro ⟨⟨l, x⟩, hmem, hl⟩
    exact ⟨(l, x), hmem, by simp only at hl; simp [hl, nameIn]⟩

theorem filterMap_nameIn_putIn (up l : Location) (x : Entry) (es : List (Location × Entry)) :
    (putIn l x es).filterMap (nameIn up) =
      if find? l es = none then es.filterMap (nameIn up) ++ (nameIn up (l, x)).toList
      else es.filterMap (nameIn up) := by
  -- Names are listed without a look at what the entries are.
  have blind : ∀ e : Location × Entry, e.1 = l → nameIn up e = nameIn up (l, x) := by
    rintro ⟨m, y⟩ rfl
    cases m <;> rfl
  induction es with
  | nil => cases h : nameIn up (l, x) <;> simp [putIn, find?, h]
  | cons e es ih =>
    simp only [putIn, find?]
    split
    next he =>
      rw [if_neg (by simp), List.filterMap_cons, List.filterMap_cons, blind e he]
    next he =>
      rw [List.filterMap_cons, List.filterMap_cons, ih]
      split <;> split <;> simp

/-- A new entry is listed last in its own directory; all other listings stay as they are. -/
theorem namesIn_put (fs : FileSystem) (l up : Location) (x : Entry) (h : Location.Valid l) :
    (fs.put l x h).namesIn up =
      if fs.lookup? l = none then fs.namesIn up ++ (nameIn up (l, x)).toList else fs.namesIn up := by
  rw [lookup?, if_neg h.1]
  exact filterMap_nameIn_putIn up l x fs.entries

/-! ## 3. Files -/

theorem readFile_eq_ok_iff {fs : FileSystem} {p : Path} {content : Bytes} :
    fs.readFile p = .ok content ↔ ∃ l, fs.locate p = .ok l ∧ fs.lookup? l = some (.file content) := by
  unfold readFile stat
  cases hl : fs.locate p with
  | error r => simp
  | ok l =>
    match he : fs.lookup? l with
    | none => simp [he]
    | some .directory => simp [he]
    | some (.file c) => simp [he]

theorem writeFile_eq_ok_iff {fs fs' : FileSystem} {p : Path} {content : Bytes} :
    fs.writeFile p content = .ok fs' ↔
      ∃ l h, fs.locate p = .ok l ∧ fs.lookup? l ≠ some .directory ∧
        fs' = fs.put l (.file content) h := by
  unfold writeFile
  cases hl : fs.locate p with
  | error r => simp
  | ok l =>
    simp only [Except.ok.injEq]
    split
    next hd => simp [hd]
    next hd =>
      split
      next hv =>
        simp only [Except.ok.injEq]
        exact ⟨fun h => ⟨l, hv, rfl, hd, h.symm⟩, fun ⟨_, _, hm, _, h⟩ => by subst hm; exact h.symm⟩
      next hv => simp [hv]

theorem put_sameDirectories {fs : FileSystem} {l : Location} (h : Location.Valid l)
    (hd : fs.lookup? l ≠ some .directory) (content : Bytes) :
    SameDirectories fs (fs.put l (.file content) h) where
  workingDirectory := rfl
  directory m := by
    rw [lookup?_put]
    split
    next hm => subst hm; simp [hd]
    next => exact Iff.rfl

/-- What was written is read. -/
theorem readFile_of_writeFile {fs fs' : FileSystem} {p : Path} {content : Bytes}
    (h : fs.writeFile p content = .ok fs') : fs'.readFile p = .ok content := by
  obtain ⟨l, hv, hl, hd, rfl⟩ := writeFile_eq_ok_iff.1 h
  rw [readFile_eq_ok_iff]
  refine ⟨l, (((put_sameDirectories hv hd content).locate_alike p).ok_iff l).2 hl, ?_⟩
  rw [lookup?_put, if_pos rfl]

/-- File systems with the same directories that agree where a path leads both take a file there, or both
refuse it. -/
theorem SameDirectories.writeFile_alike {fs fs' : FileSystem} (h : SameDirectories fs fs') {p : Path}
    (hp : fs'.locate p = fs.locate p) (content : Bytes) :
    (∃ r, fs.writeFile p content = .error r ∧ fs'.writeFile p content = .error r) ∨
    ∃ l hv, fs.locate p = .ok l ∧ fs.writeFile p content = .ok (fs.put l (.file content) hv) ∧
      fs'.writeFile p content = .ok (fs'.put l (.file content) hv) := by
  simp only [writeFile, hp]
  cases hl : fs.locate p with
  | error r => exact .inl ⟨r, rfl, rfl⟩
  | ok l =>
    simp only [h.directory l]
    by_cases hdir : fs.lookup? l = some .directory
    · simp only [if_pos hdir]
      exact .inl ⟨.isDirectory, rfl, rfl⟩
    · simp only [if_neg hdir]
      by_cases hv : Location.Valid l
      · simp only [dif_pos hv]
        exact .inr ⟨l, hv, rfl, rfl, rfl⟩
      · simp only [dif_neg hv]
        exact .inl ⟨.notFound, rfl, rfl⟩

end FileSystem
end GoldenCheck
