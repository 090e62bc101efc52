import GoldenCheck.Proofs.Golden.Report
import GoldenCheck.Proofs.Golden.Selection

/-!
# Cases do not influence each other

A run of one case gives what the case gives by itself.  A run of all cases gives the results of
these runs and prints their lines, one after the other.  The result of a case depends on its two
files and on nothing else of the file system, except that any entry of the root whose path is too
long keeps all cases from being run.
-/

namespace GoldenCheck

/-! ## 1. File systems that agree on a path -/

namespace FileSystem

variable {fs fs' : FileSystem} {p : Path}

/-- The same entry at a path, or none in either. -/
def AgreeOn (fs fs' : FileSystem) (p : Path) : Prop :=
  ∀ x, fs'.stat p = .ok x ↔ fs.stat p = .ok x

theorem AgreeOn.of_stat_eq (h : fs'.stat p = fs.stat p) : fs.AgreeOn fs' p := by
  intro x
  rw [h]

theorem readFile_iff_stat {content : Bytes} :
    fs.readFile p = .ok content ↔ fs.stat p = .ok (.file content) := by
  unfold readFile
  cases fs.stat p with
  | error r => simp
  | ok x => cases x <;> simp

theorem AgreeOn.readText_iff (h : fs.AgreeOn fs' p) {t : List Char} :
    fs'.readText p = .ok t ↔ fs.readText p = .ok t := by
  simp only [readText_eq_ok_iff, readFile_iff_stat, h _]

theorem AgreeOn.readJson_iff (h : fs.AgreeOn fs' p) {v : Json.Value} :
    fs'.readJson p = .ok v ↔ fs.readJson p = .ok v := by
  simp only [readJson_eq_ok_iff, h.readText_iff]

end FileSystem

namespace Golden

variable {fs fs' : FileSystem} {root case : Path} {shown name : Text}

theorem loadInputs_of_agree (h : fs.AgreeOn fs' (case.child inputsFile)) {xs : List Int} :
    loadInputs fs' case = .ok xs ↔ loadInputs fs case = .ok xs := by
  simp only [loadInputs_eq_ok_iff, h.readJson_iff]

/-- The result of a case depends on its two files only. -/
theorem runCase_of_agree (hinputs : fs.AgreeOn fs' (case.child inputsFile))
    (hexpected : fs.AgreeOn fs' (case.child expectedFile)) {r r' : CaseResult}
    (hr : runCase fs case name = .ok r) (hr' : runCase fs' case name = .ok r') : r' = r := by
  obtain ⟨t, e, ht, he, rfl⟩ := runCase_eq_ok_iff.1 hr
  obtain ⟨t', e', ht', he', rfl⟩ := runCase_eq_ok_iff.1 hr'
  have houtput : t' = t := by
    obtain ⟨entry, xs, hentry, hxs, rfl⟩ := output_eq_ok_iff.1 ht
    have hsame : output fs' case name = .ok (rendering name entry xs) :=
      output_eq_ok_iff.2 ⟨entry, xs, hentry, (loadInputs_of_agree hinputs).2 hxs, rfl⟩
    exact Except.ok.inj (ht'.symm.trans hsame)
  -- A text that one of them loads the other loads too, so that both load it or neither loads any.
  have hsome : ∀ u, loadExpected fs' case = .ok (some u) ↔ loadExpected fs case = .ok (some u) := by
    intro u
    simp only [loadExpected_eq_some_iff, hexpected.readText_iff]
  have hloaded : e' = e := by
    cases e with
    | some u => exact Except.ok.inj (he'.symm.trans ((hsome u).2 he))
    | none =>
      cases e' with
      | none => rfl
      | some u => exact absurd (he.symm.trans ((hsome u).1 he')) (by simp)
  rw [houtput, hloaded]

/-- An entry of a root whose inputs can be loaded is a case. -/
theorem caseAt_of_loadInputs {n : FileName} (hn : FileName.Valid n) {xs : List Int}
    (h : loadInputs fs (casePath root n) = .ok xs) : ∃ up, CaseAt fs root up n := by
  obtain ⟨d, content, hd, hinputs, hentry⟩ := loadInputs_located h
  obtain ⟨d', hd', hdir, -⟩ := inputsFile_plain.locate_child hinputs
  obtain rfl : d = d' := Except.ok.inj (hd.symm.trans hd')
  obtain ⟨up, hup, hroot, rfl⟩ := (FileSystem.plainName_decodeSystem hn).locate_child hd
  rw [Utf8.encodeSystem_decodeSystem] at hdir hentry
  exact ⟨up, hup, hroot, hdir, by simp [hentry]⟩

/-! ## 2. The results of a run -/

theorem reports_of_runCases {cs : List Path} {rs : List CaseResult}
    (h : (runCases fs name cs).result = .ok rs) : ∀ c ∈ cs, Reports fs name c := by
  rcases forall_or_first (Reports fs name) cs with hall | ⟨before, c, after, rfl, hbefore, hc⟩
  · exact hall
  · obtain ⟨lines, f, hf⟩ := (reports_or_interrupts fs name c).resolve_left hc
    rw [runCases_of_interrupts hbefore hf] at h
    contradiction

/-- A run that succeeds has the results of its cases and has printed all lines about them. -/
theorem runCases_eq_ok {cs : List Path} {rs : List CaseResult}
    (h : (runCases fs name cs).result = .ok rs) :
    cs.map (fun c => runCase fs c name) = rs.map .ok ∧
      (runCases fs name cs).printed = Text.lines (cs.flatMap (reportLines fs name)) := by
  obtain ⟨rs', hrs', hrun⟩ := runCases_of_reports (reports_of_runCases h)
  rw [hrun] at h ⊢
  obtain rfl : rs' = rs := Except.ok.inj h
  exact ⟨hrs', rfl⟩

theorem names_of_results {cs : List Path} {rs : List CaseResult}
    (h : cs.map (fun c => runCase fs c name) = rs.map .ok) :
    rs.map CaseResult.name = cs.map Path.name := by
  induction cs generalizing rs with
  | nil =>
    obtain rfl : rs = [] := by simpa using h.symm
    rfl
  | cons c cs ih =>
    cases rs with
    | nil => contradiction
    | cons r rs =>
      obtain ⟨hr, hrs⟩ := List.cons.inj h
      rw [List.map_cons, List.map_cons, ih hrs, runCase_name hr]

/-- The result that has the name of a case is the result of the case. -/
theorem mem_results_iff {cases : List Path} (hfound : findCases fs root = .ok cases)
    {rs : List CaseResult} (h : cases.map (fun c => runCase fs c name) = rs.map .ok) {n : FileName}
    (hn : casePath root n ∈ cases) (s : CaseResult) :
    s ∈ rs ∧ s.name = Utf8.decodeSystem n ↔ runCase fs (casePath root n) name = .ok s := by
  have hmem : ∀ r, r ∈ rs ↔ ∃ c ∈ cases, runCase fs c name = .ok r := by
    intro r
    rw [← List.mem_map, h, List.mem_map]
    simp
  rw [hmem]
  constructor
  · rintro ⟨⟨c, hc, hrun⟩, hname⟩
    obtain ⟨_, m, -, rfl⟩ := (mem_findCases hfound).1 hc
    rw [runCase_name hrun, casePath_name] at hname
    rwa [← Utf8.decodeSystem_injective hname]
  · intro hrun
    exact ⟨⟨_, hn, hrun⟩, by rw [runCase_name hrun, casePath_name]⟩

/-! ## 3. Runs of one case and of all -/

theorem runAll_of_ok {chosen : Option Text} {cases : List Path}
    (h : selectCases fs root shown chosen = .ok cases) :
    runAll fs root shown name chosen = runCases fs name cases := by
  rw [runAll, h, Transcript.bind_of_ok rfl]
  rfl

theorem runAll_of_error {chosen : Option Text} {f : Fault}
    (h : selectCases fs root shown chosen = .error f) :
    runAll fs root shown name chosen = ⟨[], .error f⟩ := by
  rw [runAll, h, Transcript.bind_of_error rfl]
  rfl

/-- A run of one case finds it among the others and runs it alone. -/
theorem runAll_single {cases : List Path} (h : findCases fs root = .ok cases) {n : FileName}
    (hn : casePath root n ∈ cases) :
    runAll fs root shown name (some (Utf8.decodeSystem n)) = runCases fs name [casePath root n] :=
  runAll_of_ok (selectCases_of_mem h hn shown)

theorem reportLines_encodable (hname : case.name.Encodable) (hpath : case.toText.Encodable) :
    ∀ t ∈ reportLines fs name case, t.Encodable := by
  intro t ht
  rcases List.mem_cons.1 ht with rfl | ht
  · simp only [Text.encodable_append]
    refine ⟨⟨⟨Text.encodable_ofChars _, hname⟩, Text.encodable_ofChars _⟩, ?_⟩
    split
    · exact Text.encodable_ofChars _
    · exact Text.encodable_ofChars _
  · split at ht
    · obtain rfl := List.mem_singleton.1 ht
      simp only [missingLine, Text.encodable_append]
      exact ⟨⟨⟨⟨Text.encodable_ofChars _, Text.encodable_ofChars _⟩, Text.encodable_ofChars _⟩,
        hpath⟩, Text.encodable_ofChars _⟩
    · contradiction

/-- A case is run alone with its own result or fault, if its path can be printed. -/
theorem runCases_single_result {n : FileName} (hpath : (casePath root n).toText.Encodable) :
    (runCases fs name [casePath root n]).result =
      (runCase fs (casePath root n) name).map fun r => [r] := by
  cases hrun : runCase fs (casePath root n) name with
  | error f =>
    rw [runCases_cons_of_interrupts (.run hrun)]
    rfl
  | ok r =>
    have hname : (casePath root n).name.Encodable := by
      rw [casePath, Path.toText_child, Text.encodable_append] at hpath
      rw [casePath_name]
      exact hpath.2
    rw [runCases_cons_of_reports hrun (reportLines_encodable hname hpath)]
    rfl

/-- A run of all cases that succeeds has found them. -/
theorem runAll_eq_ok {rs : List CaseResult} (h : (runAll fs root shown name none).result = .ok rs) :
    ∃ cases, findCases fs root = .ok cases ∧ (runCases fs name cases).result = .ok rs ∧
      runAll fs root shown name none = runCases fs name cases := by
  cases hfind : findCases fs root with
  | error f =>
    have hselect : selectCases fs root shown none = .error f := by
      rw [selectCases, hfind, error_bind]
    rw [runAll_of_error hselect] at h
    contradiction
  | ok cases =>
    have hselect : selectCases fs root shown none = .ok cases := by rw [selectCases, hfind, ok_bind]
    rw [runAll_of_ok hselect] at h ⊢
    exact ⟨cases, rfl, h, rfl⟩

/-- What a run of all cases prints is what the runs of one case print, in order. -/
theorem printed_of_singles {cases : List Path} (hfound : findCases fs root = .ok cases)
    {rs : List CaseResult} (h : (runCases fs name cases).result = .ok rs) :
    (runCases fs name cases).printed =
      cases.flatMap fun c => (runAll fs root shown name (some c.name)).printed := by
  have hreports := reports_of_runCases h
  have hsingle : ∀ c ∈ cases, (runAll fs root shown name (some c.name)).printed =
      Text.lines (reportLines fs name c) := by
    intro c hc
    obtain ⟨_, n, -, rfl⟩ := (mem_findCases hfound).1 hc
    obtain ⟨⟨r, hr⟩, hlines⟩ := hreports _ hc
    rw [casePath_name, runAll_single hfound hc, runCases_cons_of_reports hr hlines]
    exact List.append_nil _
  calc (runCases fs name cases).printed
      = Text.lines (cases.flatMap (reportLines fs name)) := (runCases_eq_ok h).2
    _ = cases.flatMap fun c => Text.lines (reportLines fs name c) := List.flatMap_assoc
    _ = cases.flatMap fun c => (runAll fs root shown name (some c.name)).printed := by
      rw [List.flatMap_def, List.flatMap_def, List.map_congr_left hsingle]

/-- In a file system that agrees on the two files of a case, the result of its name is the same. -/
theorem results_of_agree {n : FileName} (hn : FileName.Valid n) {r : CaseResult}
    (hr : runCase fs (casePath root n) name = .ok r)
    (hinputs : fs.AgreeOn fs' ((casePath root n).child inputsFile))
    (hexpected : fs.AgreeOn fs' ((casePath root n).child expectedFile)) {rs : List CaseResult}
    (hrs : (runAll fs' root shown name none).result = .ok rs) (s : CaseResult) :
    s ∈ rs ∧ s.name = Utf8.decodeSystem n ↔ s = r := by
  obtain ⟨cases, hfound, hrun, -⟩ := runAll_eq_ok hrs
  -- The inputs are there, so the case is one there as well and has been run.
  have hmem : casePath root n ∈ cases := by
    obtain ⟨t, -, ht, -, -⟩ := runCase_eq_ok_iff.1 hr
    obtain ⟨-, xs, -, hxs, -⟩ := output_eq_ok_iff.1 ht
    obtain ⟨up, hcase⟩ := caseAt_of_loadInputs hn ((loadInputs_of_agree hinputs).2 hxs)
    exact (mem_findCases hfound).2 ⟨up, n, hcase, rfl⟩
  obtain ⟨⟨r', hr'⟩, -⟩ := reports_of_runCases hrun _ hmem
  obtain rfl := runCase_of_agree hinputs hexpected hr hr'
  rw [mem_results_iff hfound (runCases_eq_ok hrun).1 hmem, hr', Except.ok.injEq, eq_comm]

/-- A path that is too long keeps all cases from being run. -/
theorem runAll_of_overlong {q : Path} (h : Overlong fs root q) (chosen : Option Text) :
    ∃ p, Overlong fs root p ∧
      runAll fs root shown name chosen = ⟨[], .error (.refused .nameTooLong p.toText)⟩ := by
  cases hfind : findCases fs root with
  | ok cases => exact absurd hfind (h.findCases_ne_ok cases)
  | error f =>
    obtain ⟨p, hp, rfl⟩ := overlong_of_findCases hfind
    exact ⟨p, hp, runAll_of_error (by rw [selectCases, hfind, error_bind])⟩

/-- Unless a path is refused as too long, a run of one case yields what the case yields.  A run of
all cases that succeeds yields these results under increasing names and prints what the runs of one
case print; and any other file system that agrees on the two files of a case yields the same result
for it. -/
theorem cases_run_independently (fs : FileSystem) (root : Path) (shown name : Text) :
    ((∃ p, Overlong fs root p) → ∀ chosen, ∃ p, Overlong fs root p ∧
      runAll fs root shown name chosen = ⟨[], .error (.refused .nameTooLong p.toText)⟩) ∧
    ((¬ ∃ p, Overlong fs root p) → ∀ up n, CaseAt fs root up n →
      (casePath root n).toText.Encodable →
      (runAll fs root shown name (some (Utf8.decodeSystem n))).result =
        (runCase fs (casePath root n) name).map fun r => [r]) ∧
    ∀ rs, (runAll fs root shown name none).result = .ok rs →
      (∃ cases, findCases fs root = .ok cases ∧
        cases.map (fun c => runCase fs c name) = rs.map .ok ∧
        (runAll fs root shown name none).printed =
          cases.flatMap fun c => (runAll fs root shown name (some c.name)).printed) ∧
      (rs.map CaseResult.name).Pairwise Text.Before ∧
      ∀ up n, CaseAt fs root up n → ∃ r,
        (∀ s, s ∈ rs ∧ s.name = Utf8.decodeSystem n ↔ s = r) ∧
        (runAll fs root shown name (some (Utf8.decodeSystem n))).result = .ok [r] ∧
        ∀ fs' shown' rs', (runAll fs' root shown' name none).result = .ok rs' →
          fs.AgreeOn fs' ((casePath root n).child inputsFile) →
          fs.AgreeOn fs' ((casePath root n).child expectedFile) →
          ∀ s, s ∈ rs' ∧ s.name = Utf8.decodeSystem n ↔ s = r := by
  refine ⟨fun ⟨q, hq⟩ chosen => runAll_of_overlong hq chosen, fun hshort up n hcase hpath => ?_,
    fun rs hrs => ?_⟩
  · obtain ⟨cases, hfound, hlisting⟩ := findCases_reordered (.refl fs) hshort
    have hmem : casePath root n ∈ cases := (hlisting.mem_iff _).2 ⟨up, n, hcase, rfl⟩
    rw [runAll_single hfound hmem, runCases_single_result hpath]
  · obtain ⟨cases, hfound, hrun, hall⟩ := runAll_eq_ok hrs
    have hlisting := findCases_isListing hfound
    obtain ⟨hresults, -⟩ := runCases_eq_ok hrun
    refine ⟨⟨cases, hfound, hresults, ?_⟩, ?_, fun up n hcase => ?_⟩
    · rw [hall, printed_of_singles hfound hrun]
    · rw [names_of_results hresults]
      exact List.pairwise_map.2 hlisting.increasing
    · have hmem : casePath root n ∈ cases := (hlisting.mem_iff _).2 ⟨up, n, hcase, rfl⟩
      obtain ⟨⟨r, hr⟩, hlines⟩ := reports_of_runCases hrun _ hmem
      refine ⟨r, fun s => ?_, ?_, fun fs' shown' rs' hrs' hinputs hexpected =>
        results_of_agree hcase.valid hr hinputs hexpected hrs'⟩
      · rw [mem_results_iff hfound hresults hmem, hr, Except.ok.injEq, eq_comm]
      · rw [runAll_single hfound hmem, runCases_cons_of_reports hr hlines]
        rfl

/-- The root of `twoCases` with the same case `a`, another case `b` and a new case `c`. -/
def revisedCases : FileSystem where
  entries :=
    [([Utf8.encodeSystem "g"], .directory),
      ([Utf8.encodeSystem "c", Utf8.encodeSystem "g"], .directory),
      ([inputsName, Utf8.encodeSystem "c", Utf8.encodeSystem "g"], .file (Utf8.encodeSystem "[4]")),
      ([Utf8.encodeSystem "a", Utf8.encodeSystem "g"], .directory),
      ([expectedName, Utf8.encodeSystem "a", Utf8.encodeSystem "g"],
        .file (Utf8.encodeSystem "main(2) = 1\n")),
      ([inputsName, Utf8.encodeSystem "a", Utf8.encodeSystem "g"], .file (Utf8.encodeSystem "[2]")),
      ([Utf8.encodeSystem "b", Utf8.encodeSystem "g"], .directory),
      ([inputsName, Utf8.encodeSystem "b", Utf8.encodeSystem "g"], .file (Utf8.encodeSystem "[]"))]
  workingDirectory := []
  distinct := by decide
  valid := by decide

/-- The case `b` alone, both cases of `twoCases`, and the case `a` among those of `revisedCases`. -/
theorem twoCases_run_independently :
    (¬ ∃ p, Overlong twoCases (Path.ofText "g") p) ∧
    CaseAt twoCases (Path.ofText "g") [Utf8.encodeSystem "g"] (Utf8.encodeSystem "b") ∧
    (runAll twoCases (Path.ofText "g") "g" "main" (some "b")).result =
      .ok [⟨"b", false, "main(9) = 0\nmain(-1) = -1\n", none⟩] ∧
    (runAll twoCases (Path.ofText "g") "g" "main" none).result =
      .ok [⟨"a", true, "main(2) = 1\n", some "main(2) = 1\n"⟩,
        ⟨"b", false, "main(9) = 0\nmain(-1) = -1\n", none⟩] ∧
    (runAll twoCases (Path.ofText "g") "g" "main" none).printed =
      (runAll twoCases (Path.ofText "g") "g" "main" (some "a")).printed ++
        (runAll twoCases (Path.ofText "g") "g" "main" (some "b")).printed ∧
    twoCases.AgreeOn revisedCases (Path.ofText "g/a/inputs.json") ∧
    twoCases.AgreeOn revisedCases (Path.ofText "g/a/expected") ∧
    ∃ rs, (runAll revisedCases (Path.ofText "g") "g" "main" none).result = .ok rs ∧ rs.length = 3 ∧
      ∀ s, s ∈ rs ∧ s.name = "a" ↔ s = ⟨"a", true, "main(2) = 1\n", some "main(2) = 1\n"⟩ := by
  obtain ⟨-, halone, hall⟩ := cases_run_independently twoCases (Path.ofText "g") "g" "main"
  have hfound : findCases twoCases (Path.ofText "g") =
      .ok [Path.ofText "g/a", Path.ofText "g/b"] := by decide +kernel
  have hshort : ¬ ∃ p, Overlong twoCases (Path.ofText "g") p :=
    fun ⟨_, hp⟩ => hp.findCases_ne_ok _ hfound
  have ha : CaseAt twoCases (Path.ofText "g") [Utf8.encodeSystem "g"] (Utf8.encodeSystem "a") :=
    ⟨by decide +kernel, by decide +kernel, by decide +kernel, by decide +kernel⟩
  have hb : CaseAt twoCases (Path.ofText "g") [Utf8.encodeSystem "g"] (Utf8.encodeSystem "b") :=
    ⟨by decide +kernel, by decide +kernel, by decide +kernel, by decide +kernel⟩
  have hresults : (runAll twoCases (Path.ofText "g") "g" "main" none).result =
      .ok [⟨"a", true, "main(2) = 1\n", some "main(2) = 1\n"⟩,
        ⟨"b", false, "main(9) = 0\nmain(-1) = -1\n", none⟩] := by decide +kernel
  have hinputs : twoCases.AgreeOn revisedCases (Path.ofText "g/a/inputs.json") :=
    .of_stat_eq (by decide +kernel)
  have hexpected : twoCases.AgreeOn revisedCases (Path.ofText "g/a/expected") :=
    .of_stat_eq (by decide +kernel)
  have hrevised : (runAll revisedCases (Path.ofText "g") "g" "main" none).result =
      .ok [⟨"a", true, "main(2) = 1\n", some "main(2) = 1\n"⟩, ⟨"b", false, [], none⟩,
        ⟨"c", false, "main(4) = 0\n", none⟩] := by decide +kernel
  obtain ⟨⟨cases, hcases, -, hprinted⟩, -, hnamed⟩ := hall _ hresults
  obtain rfl := Except.ok.inj (hcases.symm.trans hfound)
  obtain ⟨r, hr, -, hsame⟩ := hnamed _ _ ha
  obtain rfl : ⟨"a", true, "main(2) = 1\n", some "main(2) = 1\n"⟩ = r :=
    (hr _).1 ⟨List.mem_cons_self, by decide +kernel⟩
  refine ⟨hshort, hb, ?_, hresults, ?_, hinputs, hexpected, _, hrevised, rfl,
    hsame revisedCases "g" _ hrevised hinputs hexpected⟩
  · exact (halone hshort _ _ hb (by decide +kernel)).trans (by decide +kernel)
  · rw [hprinted]
    exact congrArg _ (List.append_nil _)

/-! ## 4. An entry that stops all cases -/

/-- The directory `hall` with a case that passes and, beside it, a file of a longer name. -/
def crowded : FileSystem where
  entries :=
    [([Utf8.encodeSystem hall], .directory),
      ([Utf8.encodeSystem "c", Utf8.encodeSystem hall], .directory),
      ([inputsName, Utf8.encodeSystem "c", Utf8.encodeSystem hall], .file (Utf8.encodeSystem "[2]")),
      ([expectedName, Utf8.encodeSystem "c", Utf8.encodeSystem hall],
        .file (Utf8.encodeSystem "main(2) = 1\n")),
      ([Utf8.encodeSystem "overlong-entry", Utf8.encodeSystem hall], .file [])]
  workingDirectory := []
  distinct := by decide +kernel
  valid := by decide +kernel

/-- A case can pass by itself while the run of this one case fails, for the path of another
entry. -/
theorem crowded_single_run_fails :
    CaseAt crowded detour [Utf8.encodeSystem hall] (Utf8.encodeSystem "c") ∧
      (casePath detour (Utf8.encodeSystem "c")).toText.Encodable ∧
      runCase crowded (casePath detour (Utf8.encodeSystem "c")) "main" =
        .ok ⟨"c", true, "main(2) = 1\n", some "main(2) = 1\n"⟩ ∧
      ¬ ∃ rs, (runAll crowded detour detour.toText "main" (some "c")).result = .ok rs := by
  have hup : crowded.locate detour = .ok [Utf8.encodeSystem hall] := by decide +kernel
  have hroot : crowded.lookup? [Utf8.encodeSystem hall] = some .directory := by decide +kernel
  refine ⟨⟨hup, hroot, by decide +kernel, by decide +kernel⟩, ?_, by decide +kernel, ?_⟩
  · -- One code point after the other: there are too many to decide it at once.
    have hchars : ((casePath detour (Utf8.encodeSystem "c")).toText.all fun p => !p.isSurrogate) =
        true := by decide +kernel
    intro p hp
    simpa using List.all_eq_true.1 hchars p hp
  · have hlong : crowded.locate (casePath detour (Utf8.encodeSystem "overlong-entry")) =
        .error .nameTooLong := by decide +kernel
    obtain ⟨p, -, hrun⟩ := runAll_of_overlong (Overlong.entry hup hroot (by decide +kernel) hlong)
      (some "c")
    rw [hrun]
    exact nofun

end Golden
end GoldenCheck
