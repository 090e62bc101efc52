import GoldenCheck.Golden.Command
import GoldenCheck.Proofs.Golden.Rebuild

/-!
# What any history leaves

The operations on golden cases, in any order, with any arguments and in any environments, change a
file system by rebuilding cases only.  What a rebuild keeps is therefore kept by every history, and
what it changes are recordings.
-/

namespace GoldenCheck
namespace Golden

/-! ## 1. Operations and histories -/

inductive Operation where
  | loadConfig (root : Path)
  | findCases (root : Path)
  | selectCases (root : Path) (shown : Text) (name : Option Text)
  | loadInputs (case : Path)
  | loadExpected (case : Path)
  | runCase (case : Path) (name : Text)
  | rebuildCase (case : Path) (name : Text)
  | runAll (root : Path) (shown name : Text) (case : Option Text)
  | rebuildAll (root : Path) (shown name : Text) (case : Option Text)
  | command (args : List Text)

inductive Answer where
  | config (x : Except Fault Json.Fields)
  | cases (x : Except Fault (List Path))
  | inputs (x : Except Fault (List Int))
  | expected (x : Except Fault (Option Text))
  | result (x : Except Fault CaseResult)
  | output (x : Except Fault Text)
  | results (x : Transcript (List CaseResult))
  | names (x : Transcript (List Text))
  | console (c : Console)

/-- What an operation leaves and what it answers, be it a fault. -/
def Operation.perform (env : Environment) (fs : FileSystem) : Operation → FileSystem × Answer
  | .loadConfig root => (fs, .config (Golden.loadConfig fs root))
  | .findCases root => (fs, .cases (Golden.findCases fs root))
  | .selectCases root shown name => (fs, .cases (Golden.selectCases fs root shown name))
  | .loadInputs case => (fs, .inputs (Golden.loadInputs fs case))
  | .loadExpected case => (fs, .expected (Golden.loadExpected fs case))
  | .runCase case name => (fs, .result (Golden.runCase fs case name))
  | .rebuildCase case name =>
    match Golden.rebuildCase fs case name with
    | .error f => (fs, .output (.error f))
    | .ok (t, fs) => (fs, .output (.ok t))
  | .runAll root shown name case => (fs, .results (Golden.runAll fs root shown name case))
  | .rebuildAll root shown name case =>
    let rebuilt := Golden.rebuildAll fs root shown name case
    (rebuilt.1, .names rebuilt.2)
  | .command args =>
    let done := goldenCommand env fs args
    (done.1, .console done.2)

/-- Operations, each with the environment that it is performed in. -/
abbrev History := List (Environment × Operation)

def History.perform : FileSystem → History → FileSystem × List Answer
  | fs, [] => (fs, [])
  | fs, (env, op) :: ops =>
    let done := op.perform env fs
    let rest := History.perform done.1 ops
    (rest.1, done.2 :: rest.2)

/-! ## 2. Histories rebuild cases -/

theorem rebuildAll_rebuilds (fs : FileSystem) (root : Path) (shown name : Text)
    (case : Option Text) : Rebuilds (fun _ => True) fs (rebuildAll fs root shown name case).1 := by
  rw [rebuildAll]
  split
  · exact .none
  · exact (rebuildCases_rebuilds name fs _).mono fun _ _ => trivial

theorem perform_rebuilds (env : Environment) (fs : FileSystem) (r : Request) :
    Rebuilds (fun _ => True) fs (perform env fs r).1 := by
  rw [perform]
  split
  · exact .none
  · split
    · exact .none
    · split
      · exact rebuildAll_rebuilds ..
      · exact .none

theorem goldenCommand_rebuilds (env : Environment) (fs : FileSystem) (args : List Text) :
    Rebuilds (fun _ => True) fs (goldenCommand env fs args).1 := by
  rw [goldenCommand]
  split
  · exact .none
  · exact .none
  · exact perform_rebuilds env fs _

theorem Operation.perform_rebuilds (env : Environment) (fs : FileSystem) (op : Operation) :
    Rebuilds (fun _ => True) fs (op.perform env fs).1 := by
  cases op with
  | rebuildCase case name =>
    rw [Operation.perform]
    split
    · exact .none
    next hcase => exact Rebuilds.none.next trivial hcase
  | rebuildAll root shown name case => exact rebuildAll_rebuilds fs root shown name case
  | command args => exact goldenCommand_rebuilds env fs args
  -- All others only read.
  | _ => exact .none

theorem History.perform_rebuilds (fs : FileSystem) (ops : History) :
    Rebuilds (fun _ => True) fs (ops.perform fs).1 := by
  -- Each operation goes on from what the one before has left, also after a fault.
  induction ops generalizing fs with
  | nil => exact .none
  | cons step ops ih => exact (step.2.perform_rebuilds step.1 fs).trans (ih _)

/-! ## 3. What rebuilds leave -/

/-- What differs is a recording that is still up to date. -/
theorem Rebuilds.recorded {names : Text → Prop} {fs fs' : FileSystem} (h : Rebuilds names fs fs')
    {l : Location} (hl : fs'.lookup? l ≠ fs.lookup? l) :
    ∃ case name t content, Recording fs' case name t l content ∧
      fs'.lookup? l = some (.file content) := by
  induction h with
  | none => exact absurd rfl hl
  | @next fs₁ fs₂ case name t _ _ hstep ih =>
    have hkept := rebuildCase_kept hstep
    obtain ⟨m, content, hm, hrec, -, rfl⟩ := rebuildCase_eq_ok_iff.1 hstep
    rw [FileSystem.lookup?_put] at hl ⊢
    -- Either the last rebuild wrote here, or it kept the recording that was here.
    by_cases hlm : l = m
    · rw [if_pos hlm]
      exact ⟨case, name, t, content, hkept.recording_iff.2 (hlm ▸ hrec), rfl⟩
    · rw [if_neg hlm] at hl ⊢
      obtain ⟨case', name', t', content', hrec', hentry⟩ := ih hl
      exact ⟨case', name', t', content', hkept.recording_iff.2 hrec', hentry⟩

/-- Whatever is done, in whatever environments, directories and files of other names stay, the same
cases are found everywhere, and what differs is an expected file that holds the output of its case
under a registered name. -/
theorem history_changes_recordings_only (fs : FileSystem) (ops : History) :
    (∀ l, (ops.perform fs).1.lookup? l = some .directory ↔ fs.lookup? l = some .directory) ∧
    (∀ l, l.head? ≠ some expectedName → (ops.perform fs).1.lookup? l = fs.lookup? l) ∧
    (∀ root, findCases (ops.perform fs).1 root = findCases fs root) ∧
    ∀ l, (ops.perform fs).1.lookup? l ≠ fs.lookup? l →
      ∃ case up name entry xs t content,
        (ops.perform fs).1.locate case = .ok up ∧ (ops.perform fs).1.lookup? up = some .directory ∧
        l = expectedName :: up ∧ EntryPoint.ofName name = .ok entry ∧
        loadInputs (ops.perform fs).1 case = .ok xs ∧ render name entry (xs.map .int) = .ok t ∧
        Utf8.encode t = .ok content ∧ (ops.perform fs).1.lookup? l = some (.file content) := by
  have hrebuilds := ops.perform_rebuilds fs
  have hkept := hrebuilds.kept
  refine ⟨hkept.directory, hkept.entry, hkept.findCases_eq, fun l hl => ?_⟩
  obtain ⟨case, name, t, content, hrec, hentry⟩ := hrebuilds.recorded hl
  obtain ⟨up, xs, hup, hdir, hat, hxs, -⟩ := hrec.beside_inputs
  obtain ⟨entry, ys, hentry', hys, rfl⟩ := output_eq_ok_iff.1 hrec.rendered
  obtain rfl : xs = ys := Except.ok.inj (hxs.symm.trans hys)
  exact ⟨case, up, name, entry, xs, _, content, hup, hdir, hat, hentry', hxs,
    render_ints (loadInputs_short hxs), hrec.encoded, hentry⟩

/-- A rebuild, a second one under another name and on a roundabout path, and two faults. -/
def mixedHistory : History :=
  [(unset, .command ["--rebuild"]), (unset, .rebuildAll (Path.ofText "golden") "golden" "b" none),
    (unset, .rebuildCase (Path.ofText "golden/a/../a") "first_divisor"),
    (⟨none, some (Utf8.encodeSystem "b"), Path.ofText "golden"⟩, .command ["--rebuild"])]

theorem mixedHistory_changes_recordings_only :
    (mixedHistory.perform oneCase).1.lookup? (inputsName :: onlyCase) =
        oneCase.lookup? (inputsName :: onlyCase) ∧
      (mixedHistory.perform oneCase).1.lookup? (expectedName :: onlyCase) ≠
        oneCase.lookup? (expectedName :: onlyCase) ∧
      ∃ case up name entry xs t content,
        (mixedHistory.perform oneCase).1.locate case = .ok up ∧
        (mixedHistory.perform oneCase).1.lookup? up = some .directory ∧
        expectedName :: onlyCase = expectedName :: up ∧ EntryPoint.ofName name = .ok entry ∧
        loadInputs (mixedHistory.perform oneCase).1 case = .ok xs ∧
        render name entry (xs.map .int) = .ok t ∧ Utf8.encode t = .ok content ∧
        (mixedHistory.perform oneCase).1.lookup? (expectedName :: onlyCase) =
          some (.file content) := by
  obtain ⟨-, hother, -, hrecorded⟩ := history_changes_recordings_only oneCase mixedHistory
  have hdiffers : (mixedHistory.perform oneCase).1.lookup? (expectedName :: onlyCase) ≠
      oneCase.lookup? (expectedName :: onlyCase) := by decide
  exact ⟨hother _ (by decide), hdiffers, hrecorded _ hdiffers⟩

end Golden
end GoldenCheck
