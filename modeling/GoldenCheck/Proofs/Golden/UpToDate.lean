import GoldenCheck.Proofs.Golden.EntryChoice
import GoldenCheck.Proofs.Golden.Report

/-!
# Cases that are up to date

A case is up to date if its expected file holds its recording.  Rebuilding a case brings it up to
date and leaves all others so, also one on another path to the same directory.  A case that is up to
date passes, and rebuilding it once more changes nothing.
-/

namespace GoldenCheck
namespace Golden

/-! ## 1. One case -/

def UpToDate (fs : FileSystem) (name : Text) (case : Path) : Prop :=
  ∃ t l content, Recording fs case name t l content ∧ fs.lookup? l = some (.file content)

theorem readJson_of_locate_eq {fs : FileSystem} {p q : Path} {l : Location} {v : Json.Value}
    (hp : fs.locate p = .ok l) (hq : fs.locate q = .ok l) (h : fs.readJson p = .ok v) :
    fs.readJson q = .ok v := by
  simpa only [FileSystem.readJson_eq_ok_iff, FileSystem.readText_eq_ok_iff,
    FileSystem.readFile_eq_ok_iff, hp, hq] using h

/-- What is recorded at a location depends on the name only, not on the path that leads there. -/
theorem Recording.unique {fs : FileSystem} {c c' : Path} {name t t' : Text} {l : Location}
    {content content' : Bytes} (h : Recording fs c name t l content)
    (h' : Recording fs c' name t' l content') : content' = content := by
  obtain ⟨up, xs, hup, -, rfl, hxs, -⟩ := h.beside_inputs
  obtain ⟨up', ys, hup', -, hl, hys, -⟩ := h'.beside_inputs
  obtain rfl : up = up' := (List.cons.inj hl).2
  obtain ⟨v, _, hv, hinputs, -⟩ := loadInputs_located hxs
  obtain ⟨w, _, hw, hinputs', -⟩ := loadInputs_located hys
  obtain rfl : v = up := Except.ok.inj (hv.symm.trans hup)
  obtain rfl : w = v := Except.ok.inj (hw.symm.trans hup')
  -- The inputs lie beside the recording, so that both cases have the same.
  have hsame : loadInputs fs c' = .ok xs :=
    loadInputs_eq_ok_iff.2 (readJson_of_locate_eq hinputs hinputs' (loadInputs_eq_ok_iff.1 hxs))
  obtain ⟨entry, zs, hentry, hzs, rfl⟩ := output_eq_ok_iff.1 h.rendered
  obtain rfl : zs = xs := Except.ok.inj (hzs.symm.trans hxs)
  have ht' : output fs c' name = .ok (rendering name entry zs) :=
    output_eq_ok_iff.2 ⟨entry, zs, hentry, hsame, rfl⟩
  obtain rfl := Except.ok.inj (h'.rendered.symm.trans ht')
  exact Except.ok.inj (h'.encoded.symm.trans h.encoded)

theorem rebuildCase_upToDate {fs fs' : FileSystem} {c : Path} {name t : Text}
    (h : rebuildCase fs c name = .ok (t, fs')) : UpToDate fs' name c := by
  have hkept := rebuildCase_kept h
  obtain ⟨l, content, hl, hrec, -, rfl⟩ := rebuildCase_eq_ok_iff.1 h
  exact ⟨t, l, content, hkept.recording_iff.2 hrec, by rw [FileSystem.lookup?_put, if_pos rfl]⟩

namespace UpToDate

variable {fs : FileSystem} {name : Text} {c : Path}

theorem of_rebuildCase (h : UpToDate fs name c) {fs' : FileSystem} {d : Path} {s : Text}
    (hd : rebuildCase fs d name = .ok (s, fs')) : UpToDate fs' name c := by
  have hkept := rebuildCase_kept hd
  obtain ⟨t, l, content, hrec, hfile⟩ := h
  obtain ⟨m, written, hm, hrec', -, rfl⟩ := rebuildCase_eq_ok_iff.1 hd
  refine ⟨t, l, content, hkept.recording_iff.2 hrec, ?_⟩
  rw [FileSystem.lookup?_put]
  split
  next hlm =>
    -- Another path to the same directory: what is written is what was there.
    subst hlm
    rw [hrec.unique hrec']
  next => exact hfile

theorem of_rebuilds (h : UpToDate fs name c) {fs' : FileSystem}
    (hfs' : Rebuilds (· = name) fs fs') : UpToDate fs' name c := by
  induction hfs' with
  | none => exact h
  | next _ hname hstep ih => exact ih.of_rebuildCase (hname ▸ hstep)

theorem passes (h : UpToDate fs name c) : Passes fs name c := by
  obtain ⟨t, l, content, hrec, hfile⟩ := h
  have hexpected :=
    loadExpected_of_file (output_plain hrec.rendered) hrec.encoded hrec.located hfile
  exact passes_iff.2 ⟨_, runCase_eq_ok_iff.2 ⟨t, some t, hrec.rendered, hexpected, rfl⟩, by simp⟩

theorem rebuildCase_eq (h : UpToDate fs name c) : ∃ t, rebuildCase fs c name = .ok (t, fs) := by
  obtain ⟨t, l, content, hrec, hfile⟩ := h
  obtain ⟨up, -, -, -, hl, -⟩ := hrec.beside_inputs
  have hvalid := FileSystem.valid_of_lookup? hfile (by simp [hl])
  exact ⟨t, rebuildCase_eq_ok_iff.2
    ⟨l, content, hvalid, hrec, by simp [hfile], (FileSystem.put_self hvalid hfile).symm⟩⟩

end UpToDate

/-! ## 2. Rebuilding several cases -/

theorem rebuildCases_cons_of_ok {fs fs' : FileSystem} {name t : Text} {c : Path}
    (hc : rebuildCase fs c name = .ok (t, fs')) (hline : (rebuiltLine c).Encodable)
    (cs : List Path) :
    rebuildCases name fs (c :: cs) =
      ((rebuildCases name fs' cs).1,
        ⟨Text.lines [rebuiltLine c] ++ (rebuildCases name fs' cs).2.printed,
          (rebuildCases name fs' cs).2.result.map (c.name :: ·)⟩) := by
  have hprint := Transcript.printLine_of_encodable hline
  rw [rebuildCases]
  simp only [hc, hprint]
  rw [Transcript.bind_of_ok (a := ()) rfl]
  cases hrest : (rebuildCases name fs' cs).2.result with
  | error f => rw [Transcript.bind_of_error hrest]; rfl
  | ok names => rw [Transcript.bind_of_ok hrest]; simp [pure, Except.map]

theorem rebuildCases_cons_eq_ok {fs : FileSystem} {name : Text} {c : Path} {cs : List Path}
    {names : List Text} (h : (rebuildCases name fs (c :: cs)).2.result = .ok names) :
    ∃ t fs', rebuildCase fs c name = .ok (t, fs') ∧ (rebuiltLine c).Encodable := by
  rw [rebuildCases] at h
  split at h
  · contradiction
  next t fs' hc =>
    refine ⟨t, fs', hc, ?_⟩
    -- The file is written by now, but a line that cannot be printed still ends the rebuild.
    by_contra hline
    obtain ⟨e, he⟩ := Text.exists_encodeError hline
    simp only [Transcript.printLine_of_error he] at h
    contradiction

/-- Once rebuilding ends well, each case has its line and is up to date. -/
theorem rebuildCases_of_ok {fs : FileSystem} {name : Text} {cs : List Path} {names : List Text}
    (h : (rebuildCases name fs cs).2.result = .ok names) :
    (rebuildCases name fs cs).2.printed = Text.lines (cs.map rebuiltLine) ∧
      ∀ c ∈ cs, UpToDate (rebuildCases name fs cs).1 name c ∧ (rebuiltLine c).Encodable := by
  induction cs generalizing fs names with
  | nil => exact ⟨rfl, nofun⟩
  | cons c cs ih =>
    obtain ⟨t, fs', hc, hline⟩ := rebuildCases_cons_eq_ok h
    rw [rebuildCases_cons_of_ok hc hline] at h ⊢
    cases hrest : (rebuildCases name fs' cs).2.result with
    | error f => simp only [hrest] at h; contradiction
    | ok rest =>
      obtain ⟨hprinted, hall⟩ := ih hrest
      -- The rebuilds that follow leave `c` as up to date as it is now.
      have hup := (rebuildCase_upToDate hc).of_rebuilds (rebuildCases_rebuilds name fs' cs)
      refine ⟨?_, List.forall_mem_cons.2 ⟨⟨hup, hline⟩, hall⟩⟩
      simp only [hprinted, ← Text.lines_append]
      rfl

/-- Rebuilding cases that are up to date prints the same lines and changes nothing. -/
theorem rebuildCases_of_upToDate {fs : FileSystem} {name : Text} {cs : List Path}
    (h : ∀ c ∈ cs, UpToDate fs name c ∧ (rebuiltLine c).Encodable) :
    rebuildCases name fs cs = (fs, ⟨Text.lines (cs.map rebuiltLine), .ok (cs.map Path.name)⟩) := by
  induction cs with
  | nil => rfl
  | cons c cs ih =>
    obtain ⟨hc, hline⟩ := h c List.mem_cons_self
    obtain ⟨t, ht⟩ := hc.rebuildCase_eq
    rw [rebuildCases_cons_of_ok ht hline, ih fun d hd => h d (List.mem_cons_of_mem _ hd)]
    simp only [← Text.lines_append]
    rfl

/-! ## 3. Running several cases -/

/-- Running cases that are up to date shows a line for each and that all have passed. -/
theorem runCases_of_upToDate {fs : FileSystem} {name : Text} {cs : List Path} (root : Path)
    (hne : cs ≠ []) (h : ∀ c ∈ cs, UpToDate fs name c ∧ (rebuiltLine c).Encodable) :
    reporting (runCases fs name cs) (summarize root) =
      ⟨Text.lines (cs.map passedLine ++ [allPassedLine cs.length]), .ok 0⟩ := by
  have hpasses : ∀ c ∈ cs, Passes fs name c := fun c hc => (h c hc).1.passes
  have hreports : ∀ c ∈ cs, Reports fs name c := by
    intro c hc
    -- The line of a rebuild shows the whole path, and with it the name.
    have hline := (h c hc).2
    rw [rebuiltLine, Text.encodable_append] at hline
    exact (hpasses c hc).reports (Path.name_encodable hline.2)
  obtain ⟨rs, hrs, hrun⟩ := runCases_of_reports hreports
  have hlines : cs.flatMap (reportLines fs name) = cs.map passedLine := by
    rw [List.map_eq_flatMap, List.flatMap_def, List.flatMap_def,
      List.map_congr_left fun c hc => (hpasses c hc).reportLines_eq]
  have hsummary : summary root rs = (allPassedLine cs.length, 0) := by
    rw [summary_of_results root hrs, if_neg hne, if_pos (by simpa using hpasses)]
  have hend : summarize root rs = _ :=
    summarize_of_encodable (by rw [hsummary]; exact allPassedLine_encodable _)
  rw [reporting_of_ok (by rw [hrun]), hrun, hend, hsummary, hlines, Text.lines_append]

/-! ## 4. The command -/

/-- A rebuild that returns 0 has found its cases and rebuilt them all. -/
theorem perform_rebuild_zero {env : Environment} {fs : FileSystem} {r : Request}
    (hlist : r.list = false) (hrebuild : r.rebuild = true)
    (h : (perform env fs r).2.result = .ok 0) :
    ∃ name cases names, r.entryName env fs = .ok name ∧
      selectCases fs (r.root env) (r.root env).toText r.case = .ok cases ∧
      (rebuildCases name fs cases).2.result = .ok names := by
  -- A fault on the way would be reported with status 1.
  have ne_zero : ∀ {α : Type} {x : Transcript α} {f : Fault} {next : α → Transcript Nat},
      x.result = .error f → (reporting x next).result ≠ .ok 0 :=
    fun hx hs => absurd (reporting_of_error hx hs).2.1 (by decide)
  cases hname : r.entryName env fs with
  | error f =>
    simp only [perform, hlist, hname] at h
    exact absurd h (ne_zero rfl)
  | ok name =>
    cases hcases : selectCases fs (r.root env) (r.root env).toText r.case with
    | error f =>
      simp only [perform, hlist, hrebuild, hname, rebuildAll, hcases] at h
      exact absurd h (ne_zero rfl)
    | ok cases =>
      rw [perform_rebuild hname hcases hlist hrebuild] at h
      cases hnames : (rebuildCases name fs cases).2.result with
      | error f => exact absurd h (ne_zero hnames)
      | ok names => exact ⟨name, cases, names, rfl, rfl, hnames⟩

/-- After a rebuild that returns 0, the same command without it passes all cases that were rebuilt,
in their order, and a second rebuild shows and changes nothing new. -/
theorem rebuild_then_run_passes {env : Environment} {fs fs' : FileSystem} {args args' : List Text}
    {r : Request} {console : Console} (hlist : r.list = false) (hrebuild : r.rebuild = false)
    (hargs : parseRequest args = .proceed { r with rebuild := true })
    (hargs' : parseRequest args' = .proceed r)
    (hdone : goldenCommand env fs args = (fs', console)) (hzero : console.ending = .returned 0) :
    ∃ cases, selectCases fs (r.root env) (r.root env).toText r.case = .ok cases ∧
      console.out = Text.lines (cases.map rebuiltLine) ∧
      (cases ≠ [] → goldenCommand env fs' args' =
        (fs', ⟨Text.lines (cases.map passedLine ++ [allPassedLine cases.length]), [],
          .returned 0⟩)) ∧
      goldenCommand env fs' args = (fs', console) := by
  simp only [goldenCommand, hargs, hargs'] at hdone ⊢
  obtain ⟨rfl, rfl⟩ := Prod.mk.inj hdone
  obtain ⟨name, cases, names, hname, hcases, hnames⟩ :=
    perform_rebuild_zero (r := { r with rebuild := true }) hlist rfl (Console.returned_iff.1 hzero)
  obtain ⟨hprinted, hall⟩ := rebuildCases_of_ok hnames
  -- The second command finds the entry point and the cases of the first.
  have hkept := (rebuildCases_rebuilds name fs cases).kept
  have hname' := (hkept.entryName_iff ..).2 hname
  have hcases' := (hkept.selectCases_eq _ _ _).trans hcases
  have hfirst : perform env fs { r with rebuild := true } =
      ((rebuildCases name fs cases).1, ⟨Text.lines (cases.map rebuiltLine), .ok 0⟩) := by
    rw [perform_rebuild hname hcases hlist rfl, reporting_of_ok hnames, hprinted]
    simp [pure]
  have hsecond : perform env (rebuildCases name fs cases).1 { r with rebuild := true } =
      ((rebuildCases name fs cases).1, ⟨Text.lines (cases.map rebuiltLine), .ok 0⟩) := by
    rw [perform_rebuild hname' hcases' hlist rfl, rebuildCases_of_upToDate hall,
      reporting_of_ok rfl]
    simp [pure]
  rw [hfirst, hsecond]
  refine ⟨cases, hcases, rfl, fun hne => ?_, rfl⟩
  have hrun : perform env (rebuildCases name fs cases).1 r = _ :=
    perform_run hname' hcases' hlist hrebuild
  rw [hrun, runCases_of_upToDate (r.root env) hne hall]
  rfl

/-- Two cases of a root that is named are rebuilt under another entry point than one of them had. -/
theorem twoCases_rebuild_then_run_passes :
    (goldenCommand unset twoCases ["--dir", "g", "--entry", "first_divisor"]).2.ending =
      .returned 1 ∧
    ∃ fs', goldenCommand unset twoCases ["--rebuild", "--dir", "g", "--entry", "first_divisor"] =
        (fs', ⟨"✅ Rebuilt g/a/expected\n✅ Rebuilt g/b/expected\n", [], .returned 0⟩) ∧
      goldenCommand unset fs' ["--dir", "g", "--entry", "first_divisor"] =
        (fs', ⟨Text.lines [passedLine (Path.ofText "g/a"), passedLine (Path.ofText "g/b"),
          allPassedLine 2], [], .returned 0⟩) ∧
      goldenCommand unset fs' ["--rebuild", "--dir", "g", "--entry", "first_divisor"] =
        (fs', ⟨"✅ Rebuilt g/a/expected\n✅ Rebuilt g/b/expected\n", [], .returned 0⟩) := by
  have hfound : selectCases twoCases (Path.ofText "g") "g" none =
      .ok [Path.ofText "g/a", Path.ofText "g/b"] := by decide +kernel
  have hconsole :
      (goldenCommand unset twoCases ["--rebuild", "--dir", "g", "--entry", "first_divisor"]).2 =
        ⟨"✅ Rebuilt g/a/expected\n✅ Rebuilt g/b/expected\n", [], .returned 0⟩ := by decide +kernel
  obtain ⟨fs', hfs'⟩ : ∃ fs',
      goldenCommand unset twoCases ["--rebuild", "--dir", "g", "--entry", "first_divisor"] =
        (fs', ⟨"✅ Rebuilt g/a/expected\n✅ Rebuilt g/b/expected\n", [], .returned 0⟩) := by
    rw [← hconsole]
    exact ⟨_, (Prod.eta _).symm⟩
  obtain ⟨cases, hcases, -, hrun, hagain⟩ :=
    @rebuild_then_run_passes unset twoCases fs'
      ["--rebuild", "--dir", "g", "--entry", "first_divisor"]
      ["--dir", "g", "--entry", "first_divisor"]
      { dir := some "g", entry := some "first_divisor" } _ rfl rfl rfl rfl hfs' rfl
  obtain rfl := Except.ok.inj (hcases.symm.trans hfound)
  exact ⟨by decide +kernel, fs', hfs', hrun (List.cons_ne_nil _ _), hagain⟩

end Golden
end GoldenCheck
