import GoldenCheck.Proofs.Golden.Confinement
import GoldenCheck.Proofs.Golden.Report
import GoldenCheck.Proofs.Storage.Respelling

/-!
# Line endings do not matter

Everything but a rebuild looks at a file system through four questions about paths.  Where these have
the same answers, loading, running and the command have the same outcome, messages with positions
included.  The spelling of line endings changes none of the answers.
-/

namespace GoldenCheck
namespace Golden

/-! ## 1. File systems that read alike -/

/-- Every path is there, is a directory, lists and reads in one as in the other. -/
structure ReadAlike (fs fs' : FileSystem) : Prop where
  present : ∀ p, fs'.present p = fs.present p
  isFolder : ∀ p, fs'.isFolder p = fs.isFolder p
  list : ∀ p, fs'.list p = fs.list p
  readText : ∀ p, fs'.readText p = fs.readText p

theorem readAlike_respell {fs : FileSystem} {spelling : Location → LineEnding}
    (h : fs.Respellable spelling) : ReadAlike fs (fs.respell spelling) where
  present := fs.present_respell spelling
  isFolder := fs.isFolder_respell spelling
  list := fs.list_respell spelling
  readText := h.readText_respell

namespace ReadAlike

variable {fs fs' : FileSystem} (h : ReadAlike fs fs')
include h

theorem loadConfig_eq (root : Path) : loadConfig fs' root = loadConfig fs root := by
  simp only [loadConfig, FileSystem.readJson, h.present, h.readText]

theorem loadInputs_eq (case : Path) : loadInputs fs' case = loadInputs fs case := by
  simp only [loadInputs, FileSystem.readJson, h.readText]

theorem loadExpected_eq (case : Path) : loadExpected fs' case = loadExpected fs case := by
  simp only [loadExpected, h.present, h.readText]

theorem runCase_eq (case : Path) (name : Text) : runCase fs' case name = runCase fs case name := by
  simp only [runCase, output, h.loadInputs_eq, h.loadExpected_eq]

theorem findCases_eq (root : Path) : findCases fs' root = findCases fs root := by
  have hkeep : ∀ ps, keepCases fs' ps = keepCases fs ps := by
    intro ps
    refine keepCases_congr fun p _ => ?_
    simp only [isCase, h.isFolder, h.present]
  simp only [findCases, entriesOf, h.isFolder, h.list, hkeep]

theorem runAll_eq (root : Path) (shown name : Text) (case : Option Text) :
    runAll fs' root shown name case = runAll fs root shown name case := by
  have hrun : ∀ cs, runCases fs' name cs = runCases fs name cs :=
    fun cs => runCases_congr fun c _ => h.runCase_eq c name
  simp only [runAll, selectCases, h.findCases_eq, hrun]

/-- What a request shows that does not rebuild. -/
theorem perform_eq {r : Request} (hr : r.rebuild = true → r.list = true) (env : Environment) :
    (perform env fs' r).2 = (perform env fs r).2 := by
  have hname : r.entryName env fs' = r.entryName env fs := by
    simp only [Request.entryName, h.loadConfig_eq]
  unfold perform
  by_cases hlist : r.list = true
  · simp only [if_pos hlist, listCases, h.findCases_eq]
  · have hrebuild : ¬ r.rebuild = true := fun hrebuild => hlist (hr hrebuild)
    simp only [if_neg hlist, hname]
    cases r.entryName env fs with
    | error f => rfl
    | ok name => simp only [if_neg hrebuild, h.runAll_eq]

end ReadAlike

/-! ## 2. Respelled files -/

/-- The command as long as it does not rebuild: it leaves the file system and shows the same. -/
theorem goldenCommand_of_readAlike {fs fs' : FileSystem} (h : ReadAlike fs fs') {args : List Text}
    (hargs : ∀ r, parseRequest args = .proceed r → r.rebuild = true → r.list = true)
    (env : Environment) :
    (goldenCommand env fs args).1 = fs ∧ (goldenCommand env fs' args).1 = fs' ∧
      (goldenCommand env fs' args).2 = (goldenCommand env fs args).2 := by
  cases hparse : parseRequest args with
  | help => simp only [goldenCommand, hparse, and_self]
  | misuse e => simp only [goldenCommand, hparse, and_self]
  | proceed r =>
    have hquiet : r.rebuild = false ∨ r.list = true := by
      cases hrebuild : r.rebuild with
      | false => exact .inl rfl
      | true => exact .inr (hargs r hparse hrebuild)
    simp only [goldenCommand_of_request hparse, h.perform_eq (hargs r hparse),
      perform_unchanged hquiet, and_self]

/-- Spelling the line endings of any files that hold text as CR LF or CR, one way in each file, changes
no outcome: what is loaded, what a run shows and returns, and how the command ends if it does not
rebuild, faults and the positions in their messages included. -/
theorem outcomes_ignore_line_endings {fs : FileSystem} {spelling : Location → LineEnding}
    (h : fs.Respellable spelling) :
    (∀ root, loadConfig (fs.respell spelling) root = loadConfig fs root) ∧
    (∀ case, loadInputs (fs.respell spelling) case = loadInputs fs case) ∧
    (∀ case, loadExpected (fs.respell spelling) case = loadExpected fs case) ∧
    (∀ case name, runCase (fs.respell spelling) case name = runCase fs case name) ∧
    (∀ root shown name case,
      runAll (fs.respell spelling) root shown name case = runAll fs root shown name case) ∧
    ∀ env args, (∀ r, parseRequest args = .proceed r → r.rebuild = true → r.list = true) →
      (goldenCommand env fs args).1 = fs ∧
      (goldenCommand env (fs.respell spelling) args).1 = fs.respell spelling ∧
      (goldenCommand env (fs.respell spelling) args).2 = (goldenCommand env fs args).2 := by
  have halike := readAlike_respell h
  exact ⟨halike.loadConfig_eq, halike.loadInputs_eq, halike.loadExpected_eq, halike.runCase_eq,
    halike.runAll_eq, fun env args hargs => goldenCommand_of_readAlike halike hargs env⟩

/-- The root `golden` with the case `a`, which passes, and the case `b`, whose inputs are malformed in
their second line. -/
def twoLines : FileSystem where
  entries :=
    [([Utf8.encodeSystem "golden"], .directory),
      ([Utf8.encodeSystem "a", Utf8.encodeSystem "golden"], .directory),
      ([inputsName, Utf8.encodeSystem "a", Utf8.encodeSystem "golden"],
        .file (Utf8.encodeSystem "[2,\n4]")),
      ([expectedName, Utf8.encodeSystem "a", Utf8.encodeSystem "golden"],
        .file (Utf8.encodeSystem "is_small_prime(2) = 1\nis_small_prime(4) = 0\n")),
      ([Utf8.encodeSystem "b", Utf8.encodeSystem "golden"], .directory),
      ([inputsName, Utf8.encodeSystem "b", Utf8.encodeSystem "golden"],
        .file (Utf8.encodeSystem "[2,\nx]"))]
  workingDirectory := []
  distinct := by decide
  valid := by decide

/-- Inputs with CR LF and all else with CR. -/
def inputsCrlf (l : Location) : LineEnding := if l.head? = some inputsName then .crlf else .cr

theorem twoLines_ignore_line_endings :
    (twoLines.respell inputsCrlf).readFile (Path.ofText "golden/b/inputs.json") =
      .ok (Utf8.encodeSystem "[2,\r\nx]") ∧
    goldenCommand unset (twoLines.respell inputsCrlf) [] =
      (twoLines.respell inputsCrlf,
        ⟨"Running test case 'a': OK\n❌ Expecting value: line 2 column 1 (char 4)\n", [],
          .returned 1⟩) := by
  have hfiles : twoLines.Respellable inputsCrlf := by decide +kernel
  have hrun : ∀ r, parseRequest [] = .proceed r → r.rebuild = true → r.list = true := by
    intro r hr hrebuild
    obtain rfl : r = {} := (CommandLine.Parsed.proceed.inj hr).symm
    contradiction
  obtain ⟨-, -, -, -, -, hcommand⟩ := outcomes_ignore_line_endings hfiles
  obtain ⟨-, hleft, hshown⟩ := hcommand unset [] hrun
  refine ⟨by decide +kernel, Prod.ext hleft (hshown.trans ?_)⟩
  decide +kernel

end Golden
end GoldenCheck
