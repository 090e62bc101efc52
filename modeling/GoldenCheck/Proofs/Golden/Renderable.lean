import GoldenCheck.Proofs.Golden.AllOrNothing
import GoldenCheck.Proofs.Prime.Agreement

/-!
# Which inputs can be rendered

Rendering asks the entry point about one value after the other and stops at the first that is no integer,
with the fault that the entry point has for it.  Inputs that were loaded are integers, and short enough to
be written, so from there on a case can fail only at its expected file: a directory in its place, or, if
it is read, bytes that are no text.
-/

namespace GoldenCheck
namespace Golden

variable (label : Text) (entry : EntryPoint)

/-! ## 1. The answers of an entry point -/

/-- What an entry point answers about a value as it comes. -/
def EntryPoint.answer : EntryPoint → Json.Value → Except Fault Int
  | .smallPrime, v => Prime.Checked.smallPrime v
  | .firstDivisor, v => (Prime.Checked.firstDivisor v).map fun d => (d : Int)

theorem EntryPoint.answer_int (a : Int) : entry.answer (.int a) = .ok (entry.apply a) := by
  cases entry with
  | smallPrime => exact Prime.Checked.smallPrime_int a
  | firstDivisor => rw [answer, Prime.Checked.firstDivisor_int]; rfl

theorem EntryPoint.answer_refused {v : Json.Value} (h : ∀ n, v ≠ .int n) :
    entry.answer v = .error (.notInteger v.typeName) := by
  have hword := Prime.Checked.word_refused h
  cases entry with
  | smallPrime => rw [answer, Prime.Checked.smallPrime, Prime.Checked.classify, hword]; rfl
  | firstDivisor => rw [answer, Prime.Checked.firstDivisor, hword]; rfl

/-! ## 2. Lines -/

/-- The line of a value that can be shown is made of the value and the answer about it. -/
theorem renderLine_eq_map {v : Json.Value} {shown : Text} (h : v.display? = some shown) :
    renderLine label entry v = (entry.answer v).map fun result =>
      label ++ "(" ++ shown ++ ") = " ++ Text.ofChars (Numeral.ofInt result) ++ "\n" := by
  rw [renderLine, h]
  by_cases hint : ∃ n, v = .int n
  · obtain ⟨n, rfl⟩ := hint
    rw [entry.answer_int]
    rfl
  · have hother : ∀ n, v ≠ .int n := fun n hn => hint ⟨n, hn⟩
    rw [entry.answer_refused hother]
    cases v with
    | int n => exact absurd rfl (hother n)
    | null | bool | float | string | array | object => rfl

theorem renderLine_refused {v : Json.Value} (hv : v.Short) (h : ∀ n, v ≠ .int n) :
    renderLine label entry v = .error (.notInteger v.typeName) := by
  obtain ⟨shown, hshown⟩ := hv.exists_display
  rw [renderLine_eq_map label entry hshown, entry.answer_refused h]
  rfl

/-! ## 3. Lists of values -/

/-- A list is rendered part by part, up to the first part that fails. -/
theorem render_append (vs ws : List Json.Value) :
    render label entry (vs ++ ws) =
      render label entry vs >>= fun s => (render label entry ws).map (s ++ ·) := by
  induction vs with
  | nil => cases h : render label entry ws <;> simp [render, h, Except.map]
  | cons v vs ih =>
    rw [List.cons_append, render, render, ih]
    cases renderLine label entry v with
    | error f => rfl
    | ok line =>
      cases render label entry vs with
      | error f => rfl
      | ok s =>
        cases render label entry ws with
        | error f => rfl
        | ok t => simp [Except.map]

theorem render_append_eq_ok {vs ws : List Json.Value} {u : Text}
    (h : render label entry (vs ++ ws) = .ok u) :
    ∃ s t, render label entry vs = .ok s ∧ render label entry ws = .ok t ∧ u = s ++ t := by
  rw [render_append] at h
  obtain ⟨s, hs, h⟩ := bind_eq_ok_iff.1 h
  obtain ⟨t, ht, rfl⟩ := map_eq_ok_iff.1 h
  exact ⟨s, t, hs, ht, rfl⟩

/-- All values of a list are integers. -/
def AllIntegers (vs : List Json.Value) : Prop := ∀ v ∈ vs, ∃ n, v = .int n

theorem AllIntegers.exists_integers {vs : List Json.Value} (h : AllIntegers vs) :
    ∃ xs : List Int, vs = xs.map .int := by
  induction vs with
  | nil => exact ⟨[], rfl⟩
  | cons v vs ih =>
    obtain ⟨⟨n, rfl⟩, hrest⟩ := List.forall_mem_cons.1 h
    obtain ⟨xs, rfl⟩ := ih hrest
    exact ⟨n :: xs, rfl⟩

theorem render_of_short {xs : List Int} (h : ∀ v ∈ xs.map Json.Value.int, v.Short) :
    render label entry (xs.map .int) = .ok (rendering label entry xs) :=
  render_ints fun _ ha => Json.Value.short_int_iff.1 (h _ (List.mem_map_of_mem ha))

section
variable {vs : List Json.Value} (hvs : ∀ v ∈ vs, v.Short)
include hvs

/-- The first value that is no integer decides, whatever follows it. -/
theorem render_refused (h : ¬ AllIntegers vs) :
    ∃ before v after, vs = before ++ v :: after ∧ AllIntegers before ∧ (∀ n, v ≠ .int n) ∧
      render label entry vs = .error (.notInteger v.typeName) := by
  obtain ⟨before, v, after, rfl, hbefore, hother⟩ :=
    (forall_or_first (fun v => ∃ n, v = Json.Value.int n) vs).resolve_left h
  have hv : ∀ n, v ≠ .int n := fun n hn => hother ⟨n, hn⟩
  refine ⟨before, v, after, rfl, hbefore, hv, ?_⟩
  obtain ⟨xs, rfl⟩ := AllIntegers.exists_integers hbefore
  rw [render_append, render_of_short label entry fun w hw => hvs w (List.mem_append_left _ hw),
    ok_bind, render, renderLine_refused label entry (hvs v (by simp)) hv, error_bind]
  rfl

theorem render_isOk_iff : (∃ t, render label entry vs = .ok t) ↔ AllIntegers vs := by
  constructor
  · rintro ⟨t, ht⟩
    by_contra hnot
    obtain ⟨before, v, after, -, -, -, hrefused⟩ := render_refused label entry hvs hnot
    rw [hrefused] at ht
    contradiction
  · intro hall
    obtain ⟨xs, rfl⟩ := hall.exists_integers
    exact ⟨_, render_of_short label entry hvs⟩

end

/-! ## 4. The expected file -/

section
variable {fs : FileSystem} {case : Path} {name : Text} {entry : EntryPoint} {xs : List Int} {f : Fault}

/-- A directory is in the place of the expected file. -/
def ExpectedBlocked (fs : FileSystem) (case : Path) : Prop :=
  ∃ l, fs.locate (case.child expectedFile) = .ok l ∧ fs.lookup? l = some .directory

/-- What keeps an expected file from being read: a directory in its place, or bytes that are no text. -/
inductive ExpectedFault (fs : FileSystem) (case : Path) : Fault → Prop
  | directory : ExpectedBlocked fs case →
    ExpectedFault fs case (.refused .isDirectory (case.child expectedFile).toText)
  | undecodable {content : Bytes} {e : Utf8.DecodeError} :
    fs.readFile (case.child expectedFile) = .ok content → Utf8.decode content = .error e →
    ExpectedFault fs case (.undecodable e)

theorem loadExpected_of_unread (hpresent : fs.present (case.child expectedFile) = .ok true)
    (hread : fs.readText (case.child expectedFile) = .error f) : loadExpected fs case = .error f := by
  rw [loadExpected, hpresent, ok_bind, if_pos rfl, hread, error_bind]

theorem loadExpected_of_blocked (h : ExpectedBlocked fs case) :
    loadExpected fs case = .error (.refused .isDirectory (case.child expectedFile).toText) := by
  obtain ⟨l, hl, hdir⟩ := h
  apply loadExpected_of_unread
  · rw [FileSystem.present_of_locate hl, hdir, Option.isSome_some]
  · simp only [FileSystem.readText, FileSystem.readFile, FileSystem.stat, hl, hdir]

theorem loadExpected_of_undecodable {content : Bytes} {e : Utf8.DecodeError}
    (hfile : fs.readFile (case.child expectedFile) = .ok content)
    (he : Utf8.decode content = .error e) : loadExpected fs case = .error (.undecodable e) := by
  obtain ⟨l, hl, hentry⟩ := FileSystem.readFile_eq_ok_iff.1 hfile
  apply loadExpected_of_unread
  · rw [FileSystem.present_of_locate hl, hentry, Option.isSome_some]
  · simp only [FileSystem.readText, hfile, he]

/-- Beside inputs that were loaded the expected file is read, or is not there, unless a directory is in
its place or it is no text. -/
theorem loadExpected_eq_error_iff (hxs : loadInputs fs case = .ok xs) :
    loadExpected fs case = .error f ↔ ExpectedFault fs case f := by
  constructor
  · intro h
    obtain ⟨up, hat, -⟩ := expected_beside_inputs hxs
    cases hentry : fs.lookup? (expectedName :: up) with
    | none =>
      have habsent : fs.present (case.child expectedFile) = .ok false := by
        rw [FileSystem.present_of_locate hat, hentry, Option.isSome_none]
      rw [loadExpected_eq_none_iff.2 habsent] at h
      contradiction
    | some x =>
      cases x with
      | directory =>
        have hblocked : ExpectedBlocked fs case := ⟨_, hat, hentry⟩
        rw [loadExpected_of_blocked hblocked] at h
        cases h
        exact .directory hblocked
      | file content =>
        have hfile := FileSystem.readFile_eq_ok_iff.2 ⟨_, hat, hentry⟩
        cases hdecoded : Utf8.decode content with
        | error e =>
          rw [loadExpected_of_undecodable hfile hdecoded] at h
          cases h
          exact .undecodable hfile hdecoded
        | ok cs =>
          have hread := FileSystem.readText_eq_ok_iff.2 ⟨content, cs, hfile, hdecoded, rfl⟩
          rw [loadExpected_eq_some_iff.2 ⟨_, hread, rfl⟩] at h
          contradiction
  · intro h
    cases h with
    | directory hblocked => exact loadExpected_of_blocked hblocked
    | undecodable hfile he => exact loadExpected_of_undecodable hfile he

/-! ## 5. Cases -/

section
variable (hname : EntryPoint.ofName name = .ok entry) (hxs : loadInputs fs case = .ok xs)
include hname hxs

theorem output_of_inputs : output fs case name = .ok (rendering name entry xs) :=
  output_eq_ok_iff.2 ⟨entry, xs, hname, hxs, rfl⟩

theorem runCase_eq_error_iff : runCase fs case name = .error f ↔ ExpectedFault fs case f := by
  rw [runCase, output_of_inputs hname hxs, ok_bind, bind_eq_error_iff, loadExpected_eq_error_iff hxs]
  simp

theorem rebuildCase_eq_error_iff_blocked :
    rebuildCase fs case name = .error f ↔
      ExpectedBlocked fs case ∧ f = .refused .isDirectory (case.child expectedFile).toText := by
  have hrendered := output_of_inputs hname hxs
  rw [rebuildCase_eq_error_iff]
  constructor
  · intro h
    cases h with
    | output houtput =>
      rw [output_eq_error_iff.2 houtput] at hrendered
      contradiction
    | directory _ hat hdir => exact ⟨⟨_, hat, hdir⟩, rfl⟩
  · rintro ⟨⟨l, hat, hdir⟩, rfl⟩
    exact .directory hrendered hat hdir

end
end

/-- A list of values whose integers are short is rendered exactly if all values are integers, each on its
line, so that the parts of a list can be rendered apart.  Otherwise rendering fails with the fault that
the entry point has for the first value that is no integer.  A case whose inputs were loaded, under a name
that is known, therefore fails only at its expected file. -/
theorem rendering_refuses_others_only :
    (∀ vs : List Json.Value, (∀ v ∈ vs, v.Short) →
      ((∃ t, render label entry vs = .ok t) ↔ AllIntegers vs) ∧
      (∀ xs : List Int, vs = xs.map .int → render label entry vs = .ok (rendering label entry xs)) ∧
      (∀ ls rs, vs = ls ++ rs → AllIntegers vs →
        ∃ s t, render label entry ls = .ok s ∧ render label entry rs = .ok t ∧
          render label entry vs = .ok (s ++ t)) ∧
      (¬ AllIntegers vs →
        ∃ before v after f, vs = before ++ v :: after ∧ AllIntegers before ∧ (∀ n, v ≠ .int n) ∧
          f = .notInteger v.typeName ∧ entry.answer v = .error f ∧
          render label entry vs = .error f)) ∧
    ∀ (fs : FileSystem) (case : Path) (name : Text) (xs : List Int),
      EntryPoint.ofName name = .ok entry → loadInputs fs case = .ok xs → ∀ f,
        (runCase fs case name = .error f ↔ ExpectedFault fs case f) ∧
        (rebuildCase fs case name = .error f ↔
          ExpectedBlocked fs case ∧ f = .refused .isDirectory (case.child expectedFile).toText) := by
  refine ⟨fun vs hvs => ⟨render_isOk_iff label entry hvs, ?_, ?_, ?_⟩,
    fun fs case name xs hname hxs f =>
      ⟨runCase_eq_error_iff hname hxs, rebuildCase_eq_error_iff_blocked hname hxs⟩⟩
  · rintro xs rfl
    exact render_of_short label entry hvs
  · rintro ls rs rfl hall
    obtain ⟨u, hu⟩ := (render_isOk_iff label entry hvs).2 hall
    obtain ⟨s, t, hs, ht, rfl⟩ := render_append_eq_ok label entry hu
    exact ⟨s, t, hs, ht, hu⟩
  · intro hnot
    obtain ⟨before, v, after, hparts, hbefore, hv, hrefused⟩ := render_refused label entry hvs hnot
    exact ⟨before, v, after, _, hparts, hbefore, hv, rfl, entry.answer_refused hv, hrefused⟩

/-- The expected file of the case `a` is a directory, and that of `b` is no text. -/
def blockedCases : FileSystem where
  entries :=
    [([Utf8.encodeSystem "golden"], .directory),
      ([Utf8.encodeSystem "a", Utf8.encodeSystem "golden"], .directory),
      ([inputsName, Utf8.encodeSystem "a", Utf8.encodeSystem "golden"],
        .file (Utf8.encodeSystem "[9]")),
      ([expectedName, Utf8.encodeSystem "a", Utf8.encodeSystem "golden"], .directory),
      ([Utf8.encodeSystem "b", Utf8.encodeSystem "golden"], .directory),
      ([inputsName, Utf8.encodeSystem "b", Utf8.encodeSystem "golden"],
        .file (Utf8.encodeSystem "[9, -1]")),
      ([expectedName, Utf8.encodeSystem "b", Utf8.encodeSystem "golden"], .file [0xFF])]
  workingDirectory := []
  distinct := by decide
  valid := by decide

/-- A truth value behind an integer, two integers, and the two cases of `blockedCases`. -/
theorem blockedCases_refuse_others_only :
    (∀ v ∈ [Json.Value.int 9, .bool true], v.Short) ∧
    render "f" .firstDivisor [.int 9, .bool true] = .error (.notInteger "bool") ∧
    render "f" .firstDivisor [.int 9, .int (-1)] = .ok "f(9) = 3\nf(-1) = 3\n" ∧
    EntryPoint.ofName "first_divisor" = .ok .firstDivisor ∧
    loadInputs blockedCases (Path.ofText "golden/a") = .ok [9] ∧
    runCase blockedCases (Path.ofText "golden/a") "first_divisor" =
      .error (.refused .isDirectory "golden/a/expected") ∧
    rebuildCase blockedCases (Path.ofText "golden/a") "first_divisor" =
      .error (.refused .isDirectory "golden/a/expected") ∧
    loadInputs blockedCases (Path.ofText "golden/b") = .ok [9, -1] ∧
    runCase blockedCases (Path.ofText "golden/b") "first_divisor" =
      .error (.undecodable ⟨0, [0xFF], .invalidStart⟩) ∧
    ∀ f, rebuildCase blockedCases (Path.ofText "golden/b") "first_divisor" ≠ .error f := by
  obtain ⟨hrender, hcases⟩ := rendering_refuses_others_only "f" .firstDivisor
  have hname : EntryPoint.ofName "first_divisor" = .ok .firstDivisor := by decide
  have hmixed : ∀ v ∈ [Json.Value.int 9, .bool true], v.Short := by decide +kernel
  have hints : ∀ v ∈ [Json.Value.int 9, .int (-1)], v.Short := by decide +kernel
  have ha : loadInputs blockedCases (Path.ofText "golden/a") = .ok [9] := by decide +kernel
  have hb : loadInputs blockedCases (Path.ofText "golden/b") = .ok [9, -1] := by decide +kernel
  have hblocked : ExpectedBlocked blockedCases (Path.ofText "golden/a") :=
    ⟨[expectedName, Utf8.encodeSystem "a", Utf8.encodeSystem "golden"], by decide +kernel,
      by decide +kernel⟩
  refine ⟨hmixed, ?_, ?_, hname, ha, ?_, ?_, hb, ?_, fun f hf => ?_⟩
  · have hnot : ¬ AllIntegers [.int 9, .bool true] := by simp [AllIntegers]
    obtain ⟨before, v, after, f, hparts, hbefore, hv, rfl, -, hrefused⟩ :=
      (hrender _ hmixed).2.2.2 hnot
    -- The truth value comes first among the values that are no integers.
    obtain rfl : v = .bool true := by
      have hmem : v ∈ [Json.Value.int 9, .bool true] := by simp [hparts]
      simpa [hv 9] using hmem
    exact hrefused
  · rw [(hrender _ hints).2.1 [9, -1] rfl]
    decide +kernel
  · exact (hcases _ _ _ _ hname ha _).1.2 (.directory hblocked)
  · exact (hcases _ _ _ _ hname ha _).2.2 ⟨hblocked, rfl⟩
  · have hfile : blockedCases.readFile ((Path.ofText "golden/b").child expectedFile) = .ok [0xFF] := by
      decide +kernel
    exact (hcases _ _ _ _ hname hb _).1.2 (.undecodable hfile (by decide +kernel))
  · obtain ⟨⟨l, hl, hdir⟩, -⟩ := (hcases _ _ _ _ hname hb f).2.1 hf
    have hat : blockedCases.locate ((Path.ofText "golden/b").child expectedFile) =
        .ok [expectedName, Utf8.encodeSystem "b", Utf8.encodeSystem "golden"] := by decide +kernel
    obtain rfl := Except.ok.inj (hat.symm.trans hl)
    exact absurd hdir (by decide +kernel)

end Golden
end GoldenCheck
