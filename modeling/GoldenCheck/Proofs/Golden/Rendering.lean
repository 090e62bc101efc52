import GoldenCheck.Golden.Case
import GoldenCheck.Proofs.Json.Integers
import GoldenCheck.Proofs.Outcome
import GoldenCheck.Proofs.Storage.Locating

/-!
# The output of a case

The output of a case is a line for each of its inputs.  A line names the entry point and the input
before anything that depends on them, so the output of a registered name tells which name and which
inputs it came from, except that no inputs leave no trace of the name.
-/

namespace GoldenCheck

namespace FileSystem

/-! ## 1. Asking about a path -/

section
variable {fs : FileSystem} {p : Path} {f : Fault}

/-- A question about a path fails only for the length of the path, which the fault names. -/
theorem holds_mapError_eq_error_iff {test : Entry → Bool} :
    (fs.holds test p).mapError (.refused · p.toText) = .error f ↔
      fs.locate p = .error .nameTooLong ∧ f = .refused .nameTooLong p.toText := by
  rw [mapError_eq_error_iff]
  constructor
  · rintro ⟨r, hr, rfl⟩
    obtain ⟨hl, rfl⟩ := holds_eq_error_iff.1 hr
    exact ⟨hl, rfl⟩
  · rintro ⟨hl, rfl⟩
    exact ⟨_, holds_eq_error_iff.2 ⟨hl, rfl⟩, rfl⟩

theorem present_eq_error_iff :
    fs.present p = .error f ↔
      fs.locate p = .error .nameTooLong ∧ f = .refused .nameTooLong p.toText :=
  holds_mapError_eq_error_iff

theorem isFolder_eq_error_iff :
    fs.isFolder p = .error f ↔
      fs.locate p = .error .nameTooLong ∧ f = .refused .nameTooLong p.toText :=
  holds_mapError_eq_error_iff

theorem isFolder_eq_true_iff :
    fs.isFolder p = .ok true ↔ ∃ l, fs.locate p = .ok l ∧ fs.lookup? l = some .directory :=
  mapError_eq_ok_iff.trans isDirectory?_eq_true_iff

theorem present_of_locate {l : Location} (h : fs.locate p = .ok l) :
    fs.present p = .ok (fs.lookup? l).isSome := by
  rw [present, exists?, holds_of_locate h]
  cases fs.lookup? l <;> rfl

theorem isFolder_of_not_directory {l : Location} (h : fs.locate p = .ok l)
    (hentry : fs.lookup? l ≠ some .directory) : fs.isFolder p = .ok false := by
  rw [isFolder, isDirectory?, holds_of_locate h]
  cases hl : fs.lookup? l with
  | none => rfl
  | some x =>
    cases x with
    | directory => exact absurd hl hentry
    | file content => rfl

theorem isFolder_of_absent {r : Refusal} (h : fs.locate p = .error r) (hr : r.meansAbsent = true) :
    fs.isFolder p = .ok false := by
  rw [isFolder, isDirectory?, holds_of_locate_error h, if_pos hr]
  rfl

end

/-! ## 2. Reading files -/

theorem readText_eq_ok_iff {fs : FileSystem} {p : Path} {t : List Char} :
    fs.readText p = .ok t ↔
      ∃ content cs, fs.readFile p = .ok content ∧ Utf8.decode content = .ok cs ∧
        t = unifyLineEndings cs := by
  unfold readText
  cases fs.readFile p with
  | error r => simp
  | ok content => cases hd : Utf8.decode content <;> simp [hd, eq_comm]

theorem readJson_eq_ok_iff {fs : FileSystem} {p : Path} {v : Json.Value} :
    fs.readJson p = .ok v ↔ ∃ t, fs.readText p = .ok t ∧ Json.read t = .ok v := by
  unfold readJson
  cases fs.readText p with
  | error f => simp
  | ok t => cases hr : Json.read t <;> simp [hr]

end FileSystem

namespace Golden

open Numeral (Short)

/-! ## 3. Registered names -/

theorem EntryPoint.ofName_eq_ok_iff {name : Text} {entry : EntryPoint} :
    EntryPoint.ofName name = .ok entry ↔ (name, entry) ∈ EntryPoint.known := by
  constructor
  · intro h
    unfold EntryPoint.ofName at h
    split at h
    next e he =>
      have hname : e.1 = name := by simpa using List.find?_some he
      have hmem := List.mem_of_find?_eq_some he
      cases h
      rwa [← hname]
    next => contradiction
  · intro h
    simp only [EntryPoint.known, List.mem_cons, List.not_mem_nil, or_false, Prod.mk.injEq] at h
    rcases h with ⟨rfl, rfl⟩ | ⟨rfl, rfl⟩ | ⟨rfl, rfl⟩ <;> rfl

theorem EntryPoint.known_plain : ∀ e ∈ EntryPoint.known, e.1.Plain ∧ .char '(' ∉ e.1 := by decide

/-! ## 4. Lines -/

/-- The line of an input. -/
def lineOf (label : Text) (entry : EntryPoint) (a : Int) : Text :=
  label ++ "(" ++ Text.ofChars (Numeral.ofInt a) ++ ") = " ++
    Text.ofChars (Numeral.ofInt (entry.apply a)) ++ "\n"

/-- The lines of all inputs. -/
def rendering (label : Text) (entry : EntryPoint) (xs : List Int) : Text :=
  xs.flatMap (lineOf label entry)

theorem renderLine_int {label : Text} {entry : EntryPoint} {a : Int} (h : Short a) :
    renderLine label entry (.int a) = .ok (lineOf label entry a) := by
  -- An integer is put into words by its numeral, unless that is too long.
  have hshown : (Json.Value.int a).display? = some (Text.ofChars (Numeral.ofInt a)) := by
    rw [Json.Value.display?, Numeral.ofInt?_eq_some_iff.2 ⟨h, rfl⟩]
    rfl
  simp only [renderLine, hshown, Prime.integer]
  rfl

/-- Inputs within the limit are rendered, each on its line. -/
theorem render_ints {label : Text} {entry : EntryPoint} {xs : List Int} (h : ∀ a ∈ xs, Short a) :
    render label entry (xs.map .int) = .ok (rendering label entry xs) := by
  induction xs with
  | nil => rfl
  | cons a xs ih =>
    rw [List.map_cons, render, renderLine_int (h a List.mem_cons_self), ok_bind,
      ih fun b hb => h b (List.mem_cons_of_mem _ hb), ok_bind]
    rfl

theorem lineOf_append (label : Text) (entry : EntryPoint) (a : Int) (rest : Text) :
    lineOf label entry a ++ rest =
      label ++ .char '(' :: (Text.ofChars (Numeral.ofInt a) ++ .char ')' ::
        (Text.ofString " = " ++ Text.ofChars (Numeral.ofInt (entry.apply a)) ++ Text.ofString "\n" ++
          rest)) := by
  have hopen : Text.ofString "(" = [.char '('] := rfl
  have hclose : Text.ofString ") = " = .char ')' :: Text.ofString " = " := rfl
  simp only [lineOf, hopen, hclose, List.append_assoc, List.cons_append, List.nil_append]

theorem numeral_plain (a : Int) : (Text.ofChars (Numeral.ofInt a)).Plain := by
  apply Text.plain_ofChars
  intro h
  rcases Numeral.mem_ofInt h with h | h
  · exact absurd h (by decide)
  · exact absurd h (by decide)

theorem lineOf_plain {label : Text} (h : label.Plain) (entry : EntryPoint) (a : Int) :
    (lineOf label entry a).Plain :=
  ((((h.append (by decide)).append (numeral_plain a)).append (by decide)).append
    (numeral_plain _)).append (by decide)

theorem rendering_plain {label : Text} (h : label.Plain) (entry : EntryPoint) (xs : List Int) :
    (rendering label entry xs).Plain := by
  intro p hp
  obtain ⟨a, -, ha⟩ := List.mem_flatMap.1 hp
  exact lineOf_plain h entry a p ha

/-! ## 5. Which name and which inputs -/

theorem not_mem_numeral {c : Char} (hsign : c ≠ '-') (hdigit : c.isDigit = false) (a : Int) :
    .char c ∉ Text.ofChars (Numeral.ofInt a) := by
  intro h
  obtain ⟨d, hd, he⟩ := List.mem_map.1 h
  cases he
  rcases Numeral.mem_ofInt hd with rfl | h
  · exact hsign rfl
  · rw [hdigit] at h
    contradiction

/-- The first line tells the name and the first input, whatever follows. -/
theorem lineOf_append_inj {name name' : Text} {entry entry' : EntryPoint} {a b : Int}
    {rest rest' : Text} (hname : .char '(' ∉ name) (hname' : .char '(' ∉ name')
    (h : lineOf name entry a ++ rest = lineOf name' entry' b ++ rest') : name = name' ∧ a = b := by
  -- The name ends at the parenthesis that opens and the numeral at the one that closes.
  rw [lineOf_append, lineOf_append] at h
  obtain ⟨rfl, htail⟩ := Text.cut_unique hname hname' h
  obtain ⟨hnum, -⟩ := Text.cut_unique (not_mem_numeral (by decide) (by decide) a)
    (not_mem_numeral (by decide) (by decide) b) htail
  exact ⟨rfl, Numeral.ofInt_injective (Text.ofChars_injective hnum)⟩

theorem lineOf_ne_nil (label : Text) (entry : EntryPoint) (a : Int) (rest : Text) :
    lineOf label entry a ++ rest ≠ [] := by
  rw [lineOf_append]
  simp

theorem rendering_injective {name : Text} {entry : EntryPoint} (hname : .char '(' ∉ name)
    {xs ys : List Int} (h : rendering name entry xs = rendering name entry ys) : xs = ys := by
  induction xs generalizing ys with
  | nil =>
    cases ys with
    | nil => rfl
    | cons b ys => exact absurd h.symm (lineOf_ne_nil name entry b _)
  | cons a xs ih =>
    cases ys with
    | nil => exact absurd h (lineOf_ne_nil name entry a _)
    | cons b ys =>
      -- With the first inputs equal the first lines are, and can be taken off.
      obtain ⟨-, rfl⟩ := lineOf_append_inj hname hname h
      rw [ih (List.append_cancel_left h)]

/-- Two renderings under registered names agree if there are no inputs, or if both the names and the
inputs agree. -/
theorem rendering_eq_iff {name name' : Text} {entry entry' : EntryPoint}
    (hname : EntryPoint.ofName name = .ok entry) (hname' : EntryPoint.ofName name' = .ok entry')
    (xs ys : List Int) :
    rendering name entry xs = rendering name' entry' ys ↔
      xs = [] ∧ ys = [] ∨ name = name' ∧ xs = ys := by
  have hparen := (EntryPoint.known_plain _ (EntryPoint.ofName_eq_ok_iff.1 hname)).2
  have hparen' := (EntryPoint.known_plain _ (EntryPoint.ofName_eq_ok_iff.1 hname')).2
  constructor
  · intro h
    cases xs with
    | nil =>
      cases ys with
      | nil => exact .inl ⟨rfl, rfl⟩
      | cons b ys => exact absurd h.symm (lineOf_ne_nil name' entry' b _)
    | cons a xs =>
      cases ys with
      | nil => exact absurd h (lineOf_ne_nil name entry a _)
      | cons b ys =>
        -- One line is enough to tell the name; only then are the inputs compared.
        obtain ⟨rfl, -⟩ := lineOf_append_inj hparen hparen' h
        rw [hname] at hname'
        cases hname'
        exact .inr ⟨rfl, rendering_injective hparen h⟩
  · rintro (⟨rfl, rfl⟩ | ⟨rfl, rfl⟩)
    · rfl
    · rw [hname] at hname'
      cases hname'
      rfl

/-! ## 6. Inputs and output -/

theorem integers?_eq_some_iff {vs : List Json.Value} {xs : List Int} :
    integers? vs = some xs ↔ vs = xs.map .int := by
  fun_induction integers? vs generalizing xs with
  | case1 => cases xs <;> simp
  | case2 n vs ih =>
    cases xs with
    | nil => simp
    | cons m xs => simp [ih, and_comm]
  | case3 v vs hv =>
    cases xs with
    | nil => simp
    | cons n xs =>
      have hne : v ≠ .int n := hv n
      simp [hne]

/-- Inputs load if they are a list that holds integers only. -/
theorem loadInputs_eq_ok_iff {fs : FileSystem} {case : Path} {xs : List Int} :
    loadInputs fs case = .ok xs ↔
      fs.readJson (case.child inputsFile) = .ok (.array (xs.map .int)) := by
  rw [loadInputs, bind_eq_ok_iff]
  constructor
  · rintro ⟨v, hv, hxs⟩
    unfold inputsOf at hxs
    split at hxs
    next vs =>
      split at hxs
      next ys hys => cases hxs; rw [hv, integers?_eq_some_iff.1 hys]
      next => contradiction
    next => contradiction
  · intro h
    exact ⟨_, h, by simp only [inputsOf, integers?_eq_some_iff.2 rfl]⟩

theorem loadInputs_short {fs : FileSystem} {case : Path} {xs : List Int}
    (h : loadInputs fs case = .ok xs) : ∀ a ∈ xs, Short a := by
  obtain ⟨t, -, hread⟩ := FileSystem.readJson_eq_ok_iff.1 (loadInputs_eq_ok_iff.1 h)
  intro a ha
  exact Json.read_array hread (List.mem_map_of_mem ha)

/-- A case has output if its name is registered and its inputs load. -/
theorem output_eq_ok_iff {fs : FileSystem} {case : Path} {name t : Text} :
    output fs case name = .ok t ↔
      ∃ entry xs, EntryPoint.ofName name = .ok entry ∧ loadInputs fs case = .ok xs ∧
        t = rendering name entry xs := by
  unfold output
  constructor
  · intro h
    obtain ⟨entry, hentry, h⟩ := bind_eq_ok_iff.1 h
    obtain ⟨xs, hxs, h⟩ := bind_eq_ok_iff.1 h
    -- Inputs that load are short enough to be written again, so nothing can fail from here.
    rw [render_ints (loadInputs_short hxs)] at h
    exact ⟨entry, xs, hentry, hxs, (Except.ok.inj h).symm⟩
  · rintro ⟨entry, xs, hentry, hxs, rfl⟩
    rw [hentry, ok_bind, hxs, ok_bind, render_ints (loadInputs_short hxs)]

/-- The output of a case can be written to a file and read from it again. -/
theorem output_plain {fs : FileSystem} {case : Path} {name t : Text}
    (h : output fs case name = .ok t) : t.Plain := by
  obtain ⟨entry, xs, hentry, -, rfl⟩ := output_eq_ok_iff.1 h
  exact rendering_plain (EntryPoint.known_plain _ (EntryPoint.ofName_eq_ok_iff.1 hentry)).1 entry xs

end Golden
end GoldenCheck
