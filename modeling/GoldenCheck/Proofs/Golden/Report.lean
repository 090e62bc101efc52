import GoldenCheck.Golden.Command
import GoldenCheck.Proofs.Golden.Rendering
import GoldenCheck.Proofs.Storage.Writing

/-!
# The report of a run

A run prints the lines of one case after the other.  It is interrupted by the first case that has no
result, or whose lines have no encoding, and what was printed up to there stays.
-/

namespace GoldenCheck
namespace Golden

variable {fs : FileSystem} {name : Text} {case : Path}

/-! ## 1. The result of a case -/

theorem loadExpected_eq_some_iff {t : Text} :
    loadExpected fs case = .ok (some t) ↔
      ∃ cs, fs.readText (case.child expectedFile) = .ok cs ∧ t = Text.ofChars cs := by
  unfold loadExpected
  constructor
  · intro h
    obtain ⟨b, -, h⟩ := bind_eq_ok_iff.1 h
    cases b with
    | false => cases h
    | true =>
      obtain ⟨cs, hcs, h⟩ := bind_eq_ok_iff.1 h
      cases h
      exact ⟨cs, hcs, rfl⟩
  · rintro ⟨cs, hcs, rfl⟩
    -- What can be read is there, so the first question needs no assumption.
    obtain ⟨content, -, hfile, -⟩ := FileSystem.readText_eq_ok_iff.1 hcs
    obtain ⟨l, hl, hentry⟩ := FileSystem.readFile_eq_ok_iff.1 hfile
    have hpresent : fs.present (case.child expectedFile) = .ok true := by
      rw [FileSystem.present_of_locate hl, hentry, Option.isSome_some]
    rw [hpresent, ok_bind, if_pos rfl, hcs, ok_bind]

/-- A file that was written for a plain text is loaded as that text. -/
theorem loadExpected_of_file {t : Text} {l : Location} {content : Bytes} (hplain : t.Plain)
    (hencoded : Utf8.encode t = .ok content)
    (hl : fs.locate (case.child expectedFile) = .ok l)
    (hfile : fs.lookup? l = some (.file content)) :
    loadExpected fs case = .ok (some t) := by
  obtain ⟨written, cs, hwritten, hcs, hback⟩ := hplain.read_back
  obtain rfl : written = content := Except.ok.inj (hwritten.symm.trans hencoded)
  have hread : fs.readText (case.child expectedFile) = .ok (unifyLineEndings cs) :=
    FileSystem.readText_eq_ok_iff.2
      ⟨written, cs, FileSystem.readFile_eq_ok_iff.2 ⟨l, hl, hfile⟩, hcs, rfl⟩
  exact loadExpected_eq_some_iff.2 ⟨_, hread, hback.symm⟩

theorem runCase_eq_ok_iff {r : CaseResult} :
    runCase fs case name = .ok r ↔
      ∃ t expected, output fs case name = .ok t ∧ loadExpected fs case = .ok expected ∧
        r = ⟨case.name, expected = some t, t, expected⟩ := by
  simp only [runCase, bind_eq_ok_iff, Except.ok.injEq]
  constructor
  · rintro ⟨t, ht, expected, hexpected, rfl⟩
    exact ⟨t, expected, ht, hexpected, rfl⟩
  · rintro ⟨t, expected, ht, hexpected, rfl⟩
    exact ⟨t, ht, expected, hexpected, rfl⟩

theorem runCase_name {r : CaseResult} (h : runCase fs case name = .ok r) : r.name = case.name := by
  obtain ⟨t, expected, -, -, rfl⟩ := runCase_eq_ok_iff.1 h
  rfl

/-- The case has inputs and an expected file, whose text is what the inputs render to. -/
def Passes (fs : FileSystem) (name : Text) (case : Path) : Prop :=
  ∃ entry xs cs, EntryPoint.ofName name = .ok entry ∧ loadInputs fs case = .ok xs ∧
    fs.readText (case.child expectedFile) = .ok cs ∧
    render name entry (xs.map .int) = .ok (Text.ofChars cs)

theorem passes_iff :
    Passes fs name case ↔ ∃ r, runCase fs case name = .ok r ∧ r.passed = true := by
  constructor
  · rintro ⟨entry, xs, cs, hentry, hxs, hcs, hrender⟩
    have houtput : output fs case name = .ok (Text.ofChars cs) := by
      rw [output, hentry, ok_bind, hxs, ok_bind, hrender]
    exact ⟨_, runCase_eq_ok_iff.2
      ⟨_, _, houtput, loadExpected_eq_some_iff.2 ⟨cs, hcs, rfl⟩, rfl⟩, by simp⟩
  · rintro ⟨r, hr, hpassed⟩
    obtain ⟨t, expected, ht, hexpected, rfl⟩ := runCase_eq_ok_iff.1 hr
    obtain rfl := of_decide_eq_true hpassed
    obtain ⟨cs, hcs, rfl⟩ := loadExpected_eq_some_iff.1 hexpected
    obtain ⟨entry, hentry, hrest⟩ := bind_eq_ok_iff.1 ht
    obtain ⟨xs, hxs, hrender⟩ := bind_eq_ok_iff.1 hrest
    exact ⟨entry, xs, cs, hentry, hxs, hcs, hrender⟩

theorem passes_iff_of_ok {r : CaseResult} (h : runCase fs case name = .ok r) :
    Passes fs name case ↔ r.passed = true := by
  simp only [passes_iff, h, Except.ok.injEq, exists_eq_left']

instance (fs : FileSystem) (name : Text) (case : Path) : Decidable (Passes fs name case) :=
  match h : runCase fs case name with
  | .ok _ => decidable_of_iff _ (passes_iff_of_ok h).symm
  | .error _ => .isFalse fun hp => by simp [passes_iff, h] at hp

theorem loadExpected_eq_none_iff :
    loadExpected fs case = .ok none ↔ fs.present (case.child expectedFile) = .ok false := by
  unfold loadExpected
  cases fs.present (case.child expectedFile) with
  | error f => simp
  | ok b =>
    cases b with
    | false => simp
    -- A file that is there but cannot be read is a fault, not a missing file.
    | true => cases fs.readText (case.child expectedFile) <;> simp

/-- The lines about a case: its verdict, and a hint if there is no expected file. -/
def reportLines (fs : FileSystem) (name : Text) (case : Path) : List Text :=
  ("Running test case '" ++ case.name ++ "': " ++ if Passes fs name case then "OK" else "FAIL") ::
    if fs.present (case.child expectedFile) = .ok false then [missingLine case] else []

theorem reportLines_of_ok {r : CaseResult} (h : runCase fs case name = .ok r) :
    reportLines fs name case = resultLines case r := by
  have hpasses := passes_iff_of_ok h
  obtain ⟨t, expected, ht, hexpected, rfl⟩ := runCase_eq_ok_iff.1 h
  have hmissing : fs.present (case.child expectedFile) = .ok false ↔ expected = none := by
    rw [← loadExpected_eq_none_iff, hexpected, Except.ok.injEq]
  simp only [reportLines, resultLines, verdictLine, hpasses, hmissing]
  cases expected <;> rfl

def passedLine (case : Path) : Text := "Running test case '" ++ case.name ++ "': OK"

theorem Passes.reportLines_eq (h : Passes fs name case) :
    reportLines fs name case = [passedLine case] := by
  have hpresent : fs.present (case.child expectedFile) ≠ .ok false := by
    obtain ⟨_, _, cs, -, -, hcs, -⟩ := h
    intro habsent
    have hsome := loadExpected_eq_some_iff.2 ⟨cs, hcs, rfl⟩
    rw [loadExpected_eq_none_iff.2 habsent] at hsome
    cases hsome
  rw [reportLines, if_pos h, if_neg hpresent, List.append_assoc _ (Text.ofString "': ")]
  rfl

/-! ## 2. One case -/

/-- The case has a result and its lines can be printed. -/
def Reports (fs : FileSystem) (name : Text) (case : Path) : Prop :=
  (∃ r, runCase fs case name = .ok r) ∧ ∀ t ∈ reportLines fs name case, t.Encodable

/-- The case ends a run with the fault `f` after the lines `shown` about it. -/
inductive Interrupts (fs : FileSystem) (name : Text) (case : Path) : List Text → Fault → Prop
  | run {f : Fault} : runCase fs case name = .error f → Interrupts fs name case [] f
  | print {r : CaseResult} {shown rest : List Text} {t : Text} {e : Utf8.EncodeError} :
    runCase fs case name = .ok r → reportLines fs name case = shown ++ t :: rest →
    (∀ s ∈ shown, s.Encodable) → Utf8.encodeError? t = some e →
    Interrupts fs name case shown (.unencodable e)

/-- A case that passes is reported if its name can be printed. -/
theorem Passes.reports (h : Passes fs name case) (hname : case.name.Encodable) :
    Reports fs name case := by
  obtain ⟨r, hr, -⟩ := passes_iff.1 h
  refine ⟨⟨r, hr⟩, ?_⟩
  rw [h.reportLines_eq, List.forall_mem_singleton, passedLine]
  simp only [Text.encodable_append]
  exact ⟨⟨Text.encodable_ofChars _, hname⟩, Text.encodable_ofChars _⟩

theorem Reports.name_encodable (h : Reports fs name case) : case.name.Encodable := by
  -- The name stands in the verdict, which is the first line.
  have hverdict := h.2 _ List.mem_cons_self
  simp only [Text.encodable_append] at hverdict
  exact hverdict.1.1.2

theorem reports_or_interrupts (fs : FileSystem) (name : Text) (case : Path) :
    Reports fs name case ∨ ∃ shown f, Interrupts fs name case shown f := by
  cases hr : runCase fs case name with
  | error f => exact .inr ⟨[], f, .run hr⟩
  | ok r =>
    rcases forall_or_first Text.Encodable (reportLines fs name case) with
      hall | ⟨shown, t, rest, hsplit, hshown, ht⟩
    · exact .inl ⟨⟨r, hr⟩, hall⟩
    · obtain ⟨e, he⟩ := Text.exists_encodeError ht
      exact .inr ⟨shown, _, .print hr hsplit hshown he⟩

theorem runCases_cons_of_reports {c : Path} {r : CaseResult}
    (hr : runCase fs c name = .ok r) (hlines : ∀ t ∈ reportLines fs name c, t.Encodable)
    (cs : List Path) :
    runCases fs name (c :: cs) =
      ⟨Text.lines (reportLines fs name c) ++ (runCases fs name cs).printed,
        (runCases fs name cs).result.map (r :: ·)⟩ := by
  have hprint := Transcript.printLines_of_encodable hlines
  rw [reportLines_of_ok hr] at hprint ⊢
  -- Run the case, print its lines, then put its result before those of the rest.
  rw [runCases, Transcript.bind_of_ok (a := r) (by rw [hr]; rfl)]
  rw [Transcript.bind_of_ok (a := ()) (by rw [hprint]), hprint]
  cases hrest : (runCases fs name cs).result with
  | error f => rw [Transcript.bind_of_error hrest]; rfl
  | ok rs => rw [Transcript.bind_of_ok hrest]; simp [Transcript.ofExcept, pure, Except.map]

theorem runCases_cons_of_interrupts {c : Path} {shown : List Text} {f : Fault}
    (h : Interrupts fs name c shown f) (cs : List Path) :
    runCases fs name (c :: cs) = ⟨Text.lines shown, .error f⟩ := by
  rw [runCases]
  cases h with
  | run hf => rw [Transcript.bind_of_error (by rw [hf]; rfl)]; rfl
  | @print r _ rest t e hr hsplit hshown he =>
    have hprint : Transcript.printLines (shown ++ t :: rest) = _ :=
      Transcript.printLines_of_error hshown he
    rw [reportLines_of_ok hr] at hsplit
    rw [Transcript.bind_of_ok (a := r) (by rw [hr]; rfl), hsplit,
      Transcript.bind_of_error (by rw [hprint]), hprint]
    rfl

/-! ## 3. All cases -/

theorem runCases_congr {fs' : FileSystem} {cs : List Path}
    (h : ∀ c ∈ cs, runCase fs' c name = runCase fs c name) :
    runCases fs' name cs = runCases fs name cs := by
  induction cs with
  | nil => rfl
  | cons c cs ih =>
    have hrest := ih fun d hd => h d (List.mem_cons_of_mem c hd)
    simp only [runCases, h c List.mem_cons_self, hrest]

theorem runCases_of_reports {cs : List Path}
    (h : ∀ c ∈ cs, Reports fs name c) :
    ∃ rs, cs.map (fun c => runCase fs c name) = rs.map .ok ∧
      runCases fs name cs = ⟨Text.lines (cs.flatMap (reportLines fs name)), .ok rs⟩ := by
  induction cs with
  | nil => exact ⟨[], rfl, rfl⟩
  | cons c cs ih =>
    obtain ⟨⟨r, hr⟩, hlines⟩ := h c List.mem_cons_self
    obtain ⟨rs, hrs, hrun⟩ := ih fun d hd => h d (List.mem_cons_of_mem _ hd)
    refine ⟨r :: rs, by rw [List.map_cons, List.map_cons, hr, hrs], ?_⟩
    rw [runCases_cons_of_reports hr hlines, hrun, List.flatMap_cons, Text.lines_append]
    rfl

/-- A run shows all lines about the cases before the one that interrupts it. -/
theorem runCases_of_interrupts {before after : List Path} {c : Path}
    {shown : List Text} {f : Fault} (hbefore : ∀ b ∈ before, Reports fs name b)
    (h : Interrupts fs name c shown f) :
    runCases fs name (before ++ c :: after) =
      ⟨Text.lines (before.flatMap (reportLines fs name) ++ shown), .error f⟩ := by
  -- Induction on the cases before: each adds its lines, and the fault of `c` passes through.
  induction before with
  | nil => exact runCases_cons_of_interrupts h after
  | cons b before ih =>
    obtain ⟨⟨r, hr⟩, hlines⟩ := hbefore b List.mem_cons_self
    rw [List.cons_append, runCases_cons_of_reports hr hlines,
      ih fun d hd => hbefore d (List.mem_cons_of_mem _ hd), List.flatMap_cons, List.append_assoc,
      Text.lines_append (reportLines fs name b)]
    rfl

/-! ## 4. The command -/

section
variable {env : Environment} {r : Request} {cases : List Path}
  (hname : r.entryName env fs = .ok name)
  (hcases : selectCases fs (r.root env) (r.root env).toText r.case = .ok cases)
include hname hcases

theorem perform_run (hlist : r.list = false) (hrebuild : r.rebuild = false) :
    perform env fs r =
      (fs, reporting (runCases fs name cases) (summarize (r.root env))) := by
  simp only [perform, hlist, hrebuild, hname, runAll, hcases]
  rw [Transcript.bind_of_ok rfl]
  rfl

theorem perform_rebuild (hlist : r.list = false) (hrebuild : r.rebuild = true) :
    perform env fs r =
      ((rebuildCases name fs cases).1, reporting (rebuildCases name fs cases).2 fun _ => pure 0) := by
  simp only [perform, hlist, hrebuild, hname, rebuildAll, hcases]
  rfl

end

theorem summarize_of_encodable {root : Path} {rs : List CaseResult}
    (h : (summary root rs).1.Encodable) :
    summarize root rs = ⟨Text.lines [(summary root rs).1], .ok (summary root rs).2⟩ := by
  have hprint := Transcript.printLine_of_encodable h
  rw [summarize, Transcript.bind_of_ok (a := ()) (by rw [hprint]), hprint]
  simp [pure]

theorem summarize_eq_ok {root : Path} {rs : List CaseResult} {s : Nat}
    (h : (summarize root rs).result = .ok s) :
    s = (summary root rs).2 ∧ (summarize root rs).printed = Text.lines [(summary root rs).1] := by
  by_cases hline : (summary root rs).1.Encodable
  · rw [summarize_of_encodable hline] at h ⊢
    exact ⟨(Except.ok.inj h).symm, rfl⟩
  · obtain ⟨e, he⟩ := Text.exists_encodeError hline
    rw [summarize, Transcript.bind_of_error (by rw [Transcript.printLine_of_error he])] at h
    contradiction

/-- The line that ends a run in which all of `n` cases passed. -/
def allPassedLine (n : Nat) : Text := "✅ All " ++ Numeral.ofNat n ++ " golden cases passed"

theorem allPassedLine_encodable (n : Nat) : (allPassedLine n).Encodable := by
  simp only [allPassedLine, Text.encodable_append]
  exact ⟨⟨Text.encodable_ofChars _, Text.encodable_ofChars _⟩, Text.encodable_ofChars _⟩

/-- The line that ends a run of `n` cases of which some failed. -/
def failedLine (failed : List Path) (n : Nat) : Text :=
  "❌ " ++ Numeral.ofNat failed.length ++ "/" ++ Numeral.ofNat n ++ " golden cases failed: " ++
    Text.join ", " (failed.map Path.name)

theorem failed_names {cs : List Path} {rs : List CaseResult}
    (h : cs.map (fun c => runCase fs c name) = rs.map .ok) :
    (rs.filter fun r => !r.passed).map CaseResult.name =
      (cs.filter fun c => ¬ Passes fs name c).map Path.name := by
  induction cs generalizing rs with
  | nil =>
    obtain rfl : rs = [] := by simpa using h.symm
    rfl
  | cons c cs ih =>
    cases rs with
    | nil => contradiction
    | cons r rs =>
      obtain ⟨hr, hrs⟩ := List.cons.inj h
      have hpasses := passes_iff_of_ok hr
      cases hp : r.passed <;> simp [hpasses, hp, runCase_name hr, ih hrs]

/-- How a run ends whose cases have the results `rs`. -/
theorem summary_of_results {cs : List Path} {rs : List CaseResult} (root : Path)
    (h : cs.map (fun c => runCase fs c name) = rs.map .ok) :
    summary root rs =
      if cs = [] then ("ℹ️  No golden cases found in " ++ root.toText, 0)
      else if cs.filter (fun c => ¬ Passes fs name c) = [] then (allPassedLine cs.length, 0)
      else (failedLine (cs.filter fun c => ¬ Passes fs name c) cs.length, 1) := by
  have hlength : rs.length = cs.length := by simpa using (congrArg List.length h).symm
  have hempty : rs = [] ↔ cs = [] := by
    rw [← List.length_eq_zero_iff, hlength, List.length_eq_zero_iff]
  have hnames := failed_names h
  simp only [summary, hnames, hempty, hlength, List.map_eq_nil_iff, List.length_map, allPassedLine,
    failedLine]

theorem reporting_of_ok {α : Type} {x : Transcript α} {a : α} (h : x.result = .ok a)
    (next : α → Transcript Nat) :
    reporting x next = ⟨x.printed ++ (next a).printed, (next a).result⟩ := by
  simp only [reporting, h]

section
variable {α : Type} {x : Transcript α} {f : Fault} (h : x.result = .error f)
include h

theorem reporting_encodable (hf : f.isReported = true)
    (hm : Text.Encodable ("❌ " ++ f.message)) (next : α → Transcript Nat) :
    reporting x next = ⟨x.printed ++ Text.lines ["❌ " ++ f.message], .ok 1⟩ := by
  have hprint := Transcript.printLine_of_encodable hm
  simp only [reporting, h, if_pos hf]
  rw [Transcript.bind_of_ok (a := ()) (by rw [hprint]), hprint]
  simp [pure]

/-- A message that cannot be printed ends the command without a status. -/
theorem reporting_unencodable {e : Utf8.EncodeError} (hf : f.isReported = true)
    (he : Utf8.encodeError? ("❌ " ++ f.message) = some e) (next : α → Transcript Nat) :
    reporting x next = ⟨x.printed, .error (.unencodable e)⟩ := by
  have hprint := Transcript.printLine_of_error he
  simp only [reporting, h, if_pos hf]
  rw [Transcript.bind_of_error (by rw [hprint]), hprint]
  simp

/-- A fault that ends in a status is reported, in a line of its own. -/
theorem reporting_of_error {next : α → Transcript Nat} {s : Nat}
    (hs : (reporting x next).result = .ok s) :
    f.isReported = true ∧ s = 1 ∧
      (reporting x next).printed = x.printed ++ Text.lines ["❌ " ++ f.message] := by
  by_cases hf : f.isReported = true
  · by_cases hm : Text.Encodable ("❌ " ++ f.message)
    · rw [reporting_encodable h hf hm] at hs ⊢
      exact ⟨hf, (Except.ok.inj hs).symm, rfl⟩
    · obtain ⟨e, he⟩ := Text.exists_encodeError hm
      rw [reporting_unencodable h hf he] at hs
      contradiction
  · simp only [reporting, h, if_neg hf] at hs
    contradiction

end

end Golden
end GoldenCheck
