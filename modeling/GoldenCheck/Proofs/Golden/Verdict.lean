import GoldenCheck.Proofs.Golden.Discovery
import GoldenCheck.Proofs.Golden.EntryChoice
import GoldenCheck.Proofs.Golden.Report

/-!
# The verdict of a run

A run that returns a status returns 0 exactly if the entry point and the cases are found and every
case passes under a name that can be printed.  Otherwise it returns 1 and says what went wrong: a
fault before the cases, the first case that interrupts the run, or the cases that failed.
-/

namespace GoldenCheck
namespace Golden

/-! ## 1. Status 0 and status 1 -/

section
variable (env : Environment) (fs : FileSystem) (r : Request)

/-- The entry point and the cases are found, and every case passes under a name that can be printed. -/
def AllPass : Prop :=
  ∃ name entry cases, r.Chooses env fs name ∧ EntryPoint.ofName name = .ok entry ∧
    selectCases fs (r.root env) (r.root env).toText r.case = .ok cases ∧
    ∀ c ∈ cases, Passes fs name c ∧ c.name.Encodable

/-- What a run prints that returns 1. -/
inductive Complaint : Text → Prop
  /-- No entry point or no cases are found. -/
  | unstarted {f : Fault} :
    (r.entryName env fs = .error f ∨ ∃ name, r.entryName env fs = .ok name ∧
      selectCases fs (r.root env) (r.root env).toText r.case = .error f) →
    f.isReported = true → Complaint (Text.lines ["❌ " ++ f.message])
  /-- The case `c` is the first that interrupts the run. -/
  | interrupted {name : Text} {before after : List Path} {c : Path} {shown : List Text} {f : Fault} :
    r.entryName env fs = .ok name →
    selectCases fs (r.root env) (r.root env).toText r.case = .ok (before ++ c :: after) →
    (∀ b ∈ before, Reports fs name b) → Interrupts fs name c shown f → f.isReported = true →
    Complaint (Text.lines (before.flatMap (reportLines fs name) ++ shown ++ ["❌ " ++ f.message]))
  /-- All cases are reported and some failed. -/
  | failed {name : Text} {cases : List Path} :
    r.entryName env fs = .ok name →
    selectCases fs (r.root env) (r.root env).toText r.case = .ok cases →
    (cases.Pairwise fun c d => Text.le c.name d.name = true) →
    (∀ c ∈ cases, Reports fs name c) → cases.filter (fun c => ¬ Passes fs name c) ≠ [] →
    Complaint (Text.lines (cases.flatMap (reportLines fs name) ++
      [failedLine (cases.filter fun c => ¬ Passes fs name c) cases.length]))

end

section
variable {env : Environment} {fs : FileSystem} {r : Request} {name : Text} {cases : List Path}
  (hname : r.entryName env fs = .ok name)
  (hcases : selectCases fs (r.root env) (r.root env).toText r.case = .ok cases)
include hname hcases

theorem allPass_iff : AllPass env fs r ↔ ∀ c ∈ cases, Passes fs name c ∧ c.name.Encodable := by
  obtain ⟨hchooses, entry, hentry⟩ := entryName_eq_ok_iff.1 hname
  constructor
  · rintro ⟨name', entry', cases', hchooses', hentry', hcases', hall⟩
    have hname' := entryName_eq_ok_iff.2 ⟨hchooses', entry', hentry'⟩
    obtain rfl := Except.ok.inj (hname.symm.trans hname')
    obtain rfl := Except.ok.inj (hcases.symm.trans hcases')
    exact hall
  · exact fun hall => ⟨name, entry, cases, hchooses, hentry, hcases, hall⟩

/-- A run all of whose cases are reported. -/
theorem perform_reported (hlist : r.list = false) (hrebuild : r.rebuild = false)
    (hreports : ∀ c ∈ cases, Reports fs name c) {s : Nat}
    (hs : (perform env fs r).2.result = .ok s) :
    s = 0 ∧ AllPass env fs r ∨
      s = 1 ∧ ¬ AllPass env fs r ∧ Complaint env fs r (perform env fs r).2.printed := by
  obtain ⟨rs, hrs, hrun⟩ := runCases_of_reports hreports
  rw [perform_run hname hcases hlist hrebuild, reporting_of_ok (by rw [hrun]), hrun] at hs ⊢
  obtain ⟨hstatus, hline⟩ := summarize_eq_ok hs
  rw [summary_of_results _ hrs] at hstatus hline
  rw [allPass_iff hname hcases]
  -- Three ways to end: no cases, no failed cases, some failed cases.
  by_cases hempty : cases = []
  · rw [if_pos hempty] at hstatus
    exact .inl ⟨hstatus, by simp [hempty]⟩
  · rw [if_neg hempty] at hstatus hline
    by_cases hfailed : cases.filter (fun c => ¬ Passes fs name c) = []
    · rw [if_pos hfailed] at hstatus
      have hpass : ∀ c ∈ cases, Passes fs name c := by simpa using hfailed
      exact .inl ⟨hstatus, fun c hc => ⟨hpass c hc, (hreports c hc).name_encodable⟩⟩
    · rw [if_neg hfailed] at hstatus hline
      refine .inr ⟨hstatus, fun hall => hfailed ?_, ?_⟩
      · simpa using fun c hc => (hall c hc).1
      · rw [hline, ← Text.lines_append]
        exact .failed hname hcases (selectCases_sorted hcases) hreports hfailed

/-- A run that a case interrupts. -/
theorem perform_interrupted (hlist : r.list = false) (hrebuild : r.rebuild = false)
    (hreports : ¬ ∀ c ∈ cases, Reports fs name c) {s : Nat}
    (hs : (perform env fs r).2.result = .ok s) :
    s = 1 ∧ ¬ AllPass env fs r ∧ Complaint env fs r (perform env fs r).2.printed := by
  rcases forall_or_first (Reports fs name) cases with hall | ⟨before, c, after, rfl, hbefore, hc⟩
  · exact absurd hall hreports
  obtain ⟨shown, f, hinterrupts⟩ := (reports_or_interrupts fs name c).resolve_left hc
  have hrun : runCases fs name (before ++ c :: after) = _ :=
    runCases_of_interrupts hbefore hinterrupts
  rw [perform_run hname hcases hlist hrebuild] at hs ⊢
  obtain ⟨hf, rfl, hprinted⟩ := reporting_of_error (by rw [hrun]) hs
  refine ⟨rfl, fun hall => ?_, ?_⟩
  · -- If all passed and could be printed, `c` would have been reported.
    obtain ⟨hpass, hencodable⟩ := (allPass_iff hname hcases).1 hall c (by simp)
    exact hc (hpass.reports hencodable)
  · rw [hprinted, hrun, ← Text.lines_append]
    exact .interrupted hname hcases hbefore hinterrupts hf

end

/-- A run for which no entry point or no cases are found. -/
theorem perform_unstarted {env : Environment} {fs : FileSystem} {r : Request} {f : Fault}
    (hlist : r.list = false) (hrebuild : r.rebuild = false)
    (h : r.entryName env fs = .error f ∨ ∃ name, r.entryName env fs = .ok name ∧
      selectCases fs (r.root env) (r.root env).toText r.case = .error f) {s : Nat}
    (hs : (perform env fs r).2.result = .ok s) :
    s = 1 ∧ ¬ AllPass env fs r ∧ Complaint env fs r (perform env fs r).2.printed := by
  have hpass : ¬ AllPass env fs r := by
    rintro ⟨name, entry, cases, hchooses, hentry, hcases, -⟩
    have hname := entryName_eq_ok_iff.2 ⟨hchooses, entry, hentry⟩
    rcases h with h | ⟨_, -, h⟩
    · rw [h] at hname
      contradiction
    · rw [h] at hcases
      contradiction
  have hreport : f.isReported = true ∧ s = 1 ∧
      (perform env fs r).2.printed = Text.lines ["❌ " ++ f.message] := by
    rcases h with h | ⟨name, hname, h⟩
    · simp only [perform, hlist, h] at hs ⊢
      exact reporting_of_error rfl hs
    · simp only [perform, hlist, hrebuild, hname, runAll, h] at hs ⊢
      exact reporting_of_error rfl hs
  obtain ⟨hf, hone, hprinted⟩ := hreport
  rw [hprinted]
  exact ⟨hone, hpass, .unstarted h hf⟩

/-- A run that returns a status changes nothing. It returns 0 if the entry point and the cases are found
and every case passes under a name that can be printed, and else 1 with a complaint. -/
theorem run_verdict {env : Environment} {fs fs' : FileSystem} {args : List Text} {r : Request}
    {console : Console} {s : Nat} (hargs : parseRequest args = .proceed r)
    (hlist : r.list = false) (hrebuild : r.rebuild = false)
    (hdone : goldenCommand env fs args = (fs', console)) (hs : console.ending = .returned s) :
    fs' = fs ∧ (s = 0 ↔ AllPass env fs r) ∧ (s ≠ 0 → s = 1 ∧ Complaint env fs r console.out) := by
  simp only [goldenCommand, hargs] at hdone
  obtain ⟨rfl, rfl⟩ := Prod.mk.inj hdone
  have hstatus := Console.returned_iff.1 hs
  have hsame : (perform env fs r).1 = fs := by
    simp only [perform, hlist, hrebuild]
    cases r.entryName env fs <;> rfl
  have hsplit : s = 0 ∧ AllPass env fs r ∨
      s = 1 ∧ ¬ AllPass env fs r ∧ Complaint env fs r (perform env fs r).2.printed := by
    cases hname : r.entryName env fs with
    | error f => exact .inr (perform_unstarted hlist hrebuild (.inl hname) hstatus)
    | ok name =>
      cases hcases : selectCases fs (r.root env) (r.root env).toText r.case with
      | error f =>
        exact .inr (perform_unstarted hlist hrebuild (.inr ⟨name, hname, hcases⟩) hstatus)
      | ok cases =>
        by_cases hreports : ∀ c ∈ cases, Reports fs name c
        · exact perform_reported hname hcases hlist hrebuild hreports hstatus
        · exact .inr (perform_interrupted hname hcases hlist hrebuild hreports hstatus)
  rcases hsplit with ⟨rfl, hall⟩ | ⟨rfl, hnot, hcomplaint⟩
  · exact ⟨hsame, iff_of_true rfl hall, fun h => absurd rfl h⟩
  · exact ⟨hsame, iff_of_false (by decide) hnot, fun _ => ⟨rfl, hcomplaint⟩⟩

/-- Without an expected file the only case fails; once rebuilt it passes. -/
theorem oneCase_run_verdict :
    ((goldenCommand unset oneCase []).2.ending = .returned 1 ∧ ¬ AllPass unset oneCase {} ∧
      Complaint unset oneCase {} (goldenCommand unset oneCase []).2.out) ∧
    ((goldenCommand unset (goldenCommand unset oneCase ["--rebuild"]).1 []).2.ending = .returned 0 ∧
      AllPass unset (goldenCommand unset oneCase ["--rebuild"]).1 {}) := by
  have hfailed : (goldenCommand unset oneCase []).2.ending = .returned 1 := by decide
  have hpassed : (goldenCommand unset (goldenCommand unset oneCase ["--rebuild"]).1 []).2.ending =
      .returned 0 := by decide
  obtain ⟨-, hzero, hone⟩ := @run_verdict unset oneCase _ [] {} _ _ rfl rfl rfl rfl hfailed
  obtain ⟨-, hzero', -⟩ := @run_verdict unset (goldenCommand unset oneCase ["--rebuild"]).1 _ [] {}
    _ _ rfl rfl rfl rfl hpassed
  exact ⟨⟨hfailed, fun h => absurd (hzero.2 h) (by decide), (hone (by decide)).2⟩, hpassed,
    hzero'.1 rfl⟩

/-! ## 2. A name that cannot be printed -/

/-- The root `golden` with one case, which passes, in a directory whose name is the byte 0xFF. -/
def unprintableCase : FileSystem where
  entries :=
    [([Utf8.encodeSystem "golden"], .directory),
      ([[0xFF], Utf8.encodeSystem "golden"], .directory),
      ([inputsName, [0xFF], Utf8.encodeSystem "golden"], .file (Utf8.encodeSystem "[2]")),
      ([expectedName, [0xFF], Utf8.encodeSystem "golden"],
        .file (Utf8.encodeSystem "is_small_prime(2) = 1\n"))]
  workingDirectory := []
  distinct := by decide
  valid := by decide

/-- Every case of the root passes, and yet the run returns 1: its only line cannot be printed. -/
theorem unprintableCase_returns_one :
    (∃ name entry cases, Request.Chooses {} unset unprintableCase name ∧
      EntryPoint.ofName name = .ok entry ∧
      selectCases unprintableCase (Path.ofText "golden") "golden" none = .ok cases ∧
      ∀ c ∈ cases, Passes unprintableCase name c) ∧
    parseRequest [] = .proceed {} ∧
    (goldenCommand unset unprintableCase []).2.ending = .returned 1 := by
  have hchooses : Request.Chooses {} unset unprintableCase "is_small_prime" :=
    .inr ⟨.inl rfl, [], .inl ⟨by decide, rfl⟩, rfl⟩
  have hfound : selectCases unprintableCase (Path.ofText "golden") "golden" none =
      .ok [(Path.ofText "golden").child (Utf8.decodeSystem [0xFF])] := by decide
  refine ⟨⟨_, _, _, hchooses, rfl, hfound, ?_⟩, rfl, by decide⟩
  decide

end Golden
end GoldenCheck
