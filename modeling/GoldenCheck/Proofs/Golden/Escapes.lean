import GoldenCheck.Proofs.Golden.Confinement
import GoldenCheck.Proofs.Golden.Faults
import GoldenCheck.Proofs.Golden.Simultaneous

/-!
# When the command ends without a status

The command turns the first fault of a request into a line and status 1 only if it reports faults of
that kind and can print the line.  It returns 0 or 1 unless a path is too long, a directory stands
in the place of a file, a file nests too deeply, or a text that it shows cannot be printed.
-/

namespace GoldenCheck
namespace Golden

/-! ## 1. The first fault of a request -/

/-- The case ends a rebuild: it cannot be rebuilt, or its line cannot be printed. -/
inductive Halts (fs : FileSystem) (name : Text) (c : Path) : Fault → Prop
  | rebuild {f : Fault} : rebuildCase fs c name = .error f → Halts fs name c f
  | print {e : Utf8.EncodeError} : Rebuildable fs name c →
    Utf8.encodeError? (rebuiltLine c) = some e → Halts fs name c (.unencodable e)

theorem rebuilds_or_halts (fs : FileSystem) (name : Text) (c : Path) :
    Rebuildable fs name c ∧ (rebuiltLine c).Encodable ∨ ∃ f, Halts fs name c f := by
  cases hc : rebuildCase fs c name with
  | error f => exact .inr ⟨f, .rebuild hc⟩
  | ok x =>
    have hrebuildable : Rebuildable fs name c := ⟨x.1, x.2, hc⟩
    by_cases hline : (rebuiltLine c).Encodable
    · exact .inl ⟨hrebuildable, hline⟩
    · obtain ⟨e, he⟩ := Text.exists_encodeError hline
      exact .inr ⟨_, .print hrebuildable he⟩

theorem rebuildCases_of_halts {fs : FileSystem} {name : Text} {before : List Path} {c : Path}
    {f : Fault} (hdir : ∀ b ∈ before, fs.isDirectory? b = .ok true)
    (hbefore : ∀ b ∈ before, Rebuildable fs name b ∧ (rebuiltLine b).Encodable)
    (hc : fs.isDirectory? c = .ok true) (h : Halts fs name c f) (after : List Path) :
    (rebuildCases name fs (before ++ c :: after)).2.result = .error f := by
  have hrebuildable : ∀ b ∈ before, Rebuildable fs name b := fun b hb => (hbefore b hb).1
  have hlines : ∀ b ∈ before, (rebuiltLine b).Encodable := fun b hb => (hbefore b hb).2
  cases h with
  | rebuild hfail => rw [(rebuildCases_of_fault hdir hrebuildable hlines hc hfail after).1]
  | print hok he =>
    obtain ⟨last, hupdated, hrun⟩ :=
      rebuildCases_updated (Updated.none name fs) hdir hrebuildable hlines
    obtain ⟨t, next, hnext, -⟩ := hupdated.step hc hok
    rw [hrun, rebuildCases, hnext]
    simp only [Transcript.printLine_of_error he]
    rfl

section
variable (env : Environment) (fs : FileSystem) (r : Request)

/-- The first fault of a request that is not a listing: of the entry point, of discovery, or of the
first case that cannot be run and reported, or rebuilt. -/
inductive Raises : Fault → Prop
  | entry {f : Fault} : r.entryName env fs = .error f → Raises f
  | select {name : Text} {f : Fault} : r.entryName env fs = .ok name →
    selectCases fs (r.root env) (r.root env).toText r.case = .error f → Raises f
  | run {name : Text} {before after : List Path} {c : Path} {shown : List Text} {f : Fault} :
    r.rebuild = false → r.entryName env fs = .ok name →
    selectCases fs (r.root env) (r.root env).toText r.case = .ok (before ++ c :: after) →
    (∀ b ∈ before, Reports fs name b) → Interrupts fs name c shown f → Raises f
  | rebuild {name : Text} {before after : List Path} {c : Path} {f : Fault} :
    r.rebuild = true → r.entryName env fs = .ok name →
    selectCases fs (r.root env) (r.root env).toText r.case = .ok (before ++ c :: after) →
    (∀ b ∈ before, Rebuildable fs name b ∧ (rebuiltLine b).Encodable) → Halts fs name c f → Raises f

/-- All that a request asks for can be done. -/
structure Succeeds (name : Text) (cases : List Path) : Prop where
  entry : r.entryName env fs = .ok name
  selected : selectCases fs (r.root env) (r.root env).toText r.case = .ok cases
  run : r.rebuild = false → ∀ c ∈ cases, Reports fs name c
  rebuild : r.rebuild = true → ∀ c ∈ cases, Rebuildable fs name c ∧ (rebuiltLine c).Encodable

theorem raises_or_succeeds :
    (∃ f, Raises env fs r f) ∨ ∃ name cases, Succeeds env fs r name cases := by
  cases hname : r.entryName env fs with
  | error f => exact .inl ⟨f, .entry hname⟩
  | ok name =>
    cases hcases : selectCases fs (r.root env) (r.root env).toText r.case with
    | error f => exact .inl ⟨f, .select hname hcases⟩
    | ok cases =>
      cases hrebuild : r.rebuild with
      | false =>
        rcases forall_or_first (Reports fs name) cases with
          hall | ⟨before, c, after, rfl, hbefore, hc⟩
        · exact .inr ⟨name, cases, hname, hcases, fun _ => hall, fun h => by simp [hrebuild] at h⟩
        · obtain ⟨shown, f, hf⟩ := (reports_or_interrupts fs name c).resolve_left hc
          exact .inl ⟨f, .run hrebuild hname hcases hbefore hf⟩
      | true =>
        rcases forall_or_first (fun c => Rebuildable fs name c ∧ (rebuiltLine c).Encodable) cases with
          hall | ⟨before, c, after, rfl, hbefore, hc⟩
        · exact .inr ⟨name, cases, hname, hcases, fun h => by simp [hrebuild] at h, fun _ => hall⟩
        · obtain ⟨f, hf⟩ := (rebuilds_or_halts fs name c).resolve_left hc
          exact .inl ⟨f, .rebuild hrebuild hname hcases hbefore hf⟩

end

/-! ## 2. What a fault comes to -/

/-- Status 1 if the fault is reported and its line can be printed. -/
def outcomeOf (f : Fault) : Except Fault Nat :=
  if f.isReported then
    match Utf8.encodeError? ("❌ " ++ f.message) with
    | none => .ok 1
    | some e => .error (.unencodable e)
  else .error f

theorem reporting_result {α : Type} {x : Transcript α} {f : Fault} (h : x.result = .error f)
    (next : α → Transcript Nat) : (reporting x next).result = outcomeOf f := by
  by_cases hf : f.isReported = true
  · cases he : Utf8.encodeError? ("❌ " ++ f.message) with
    | none =>
      have hline := (Utf8.encodeError?_eq_none_iff _).1 he
      rw [reporting_encodable h hf hline, outcomeOf, if_pos hf, he]
    | some e => rw [reporting_unencodable h hf he, outcomeOf, if_pos hf, he]
  · simp only [reporting, h, outcomeOf, if_neg hf]

section
variable {env : Environment} {fs : FileSystem} {r : Request}

theorem Raises.perform_result {f : Fault} (hlist : r.list = false) (h : Raises env fs r f) :
    (perform env fs r).2.result = outcomeOf f := by
  cases h with
  | entry hname =>
    simp only [perform, hlist, hname]
    exact reporting_result rfl _
  | select hname hcases =>
    simp only [perform, hlist, hname, rebuildAll, runAll, hcases]
    cases r.rebuild with
    | false => exact reporting_result rfl _
    | true => exact reporting_result rfl _
  | run hrebuild hname hcases hbefore hc =>
    rw [perform_run hname hcases hlist hrebuild]
    exact reporting_result (by rw [runCases_of_interrupts hbefore hc]) _
  | @rebuild _ before after c _ hrebuild hname hcases hbefore hc =>
    have hdir : ∀ b ∈ before ++ c :: after, fs.isDirectory? b = .ok true :=
      fun b hb => isDirectory?_of_mem_selectCases hcases hb
    rw [perform_rebuild hname hcases hlist hrebuild]
    have hstop := rebuildCases_of_halts (fun b hb => hdir b (List.mem_append_left _ hb)) hbefore
      (hdir c (by simp)) hc after
    exact reporting_result hstop _

/-- The line that ends a run without cases. -/
def noCasesLine (root : Path) : Text := "ℹ️  No golden cases found in " ++ root.toText

theorem failedLine_encodable {failed : List Path} (h : ∀ c ∈ failed, c.name.Encodable) (n : Nat) :
    (failedLine failed n).Encodable := by
  have hnames : (Text.join ", " (failed.map Path.name)).Encodable := by
    refine Text.encodable_join (Text.encodable_ofString ", ") fun t ht => ?_
    obtain ⟨c, hc, rfl⟩ := List.mem_map.1 ht
    exact h c hc
  simp only [failedLine, Text.encodable_append]
  exact ⟨⟨⟨⟨⟨Text.encodable_ofString _, Text.encodable_ofChars _⟩, Text.encodable_ofString _⟩,
    Text.encodable_ofChars _⟩, Text.encodable_ofString _⟩, hnames⟩

theorem Succeeds.rebuild_result {name : Text} {cases : List Path} (h : Succeeds env fs r name cases)
    (hlist : r.list = false) (hrebuild : r.rebuild = true) :
    (perform env fs r).2.result = .ok 0 := by
  have hall := h.rebuild hrebuild
  have hdone := rebuildCases_of_rebuildable
    (fun c hc => isDirectory?_of_mem_selectCases h.selected hc) (fun c hc => (hall c hc).1)
    fun c hc => (hall c hc).2
  rw [perform_rebuild h.entry h.selected hlist hrebuild, reporting_of_ok (by rw [hdone.1])]
  rfl

theorem summarize_of_error {root : Path} {rs : List CaseResult} {e : Utf8.EncodeError}
    (h : Utf8.encodeError? (summary root rs).1 = some e) :
    (summarize root rs).result = .error (.unencodable e) := by
  rw [summarize, Transcript.bind_of_error (by rw [Transcript.printLine_of_error h])]

/-- A run whose cases are all reported ends in its summary, whose line can be printed unless there
are no cases. -/
theorem Succeeds.run_result {name : Text} {cases : List Path} (h : Succeeds env fs r name cases)
    (hlist : r.list = false) (hrebuild : r.rebuild = false) :
    (∀ e, cases = [] → Utf8.encodeError? (noCasesLine (r.root env)) = some e →
      (perform env fs r).2.result = .error (.unencodable e)) ∧
    (cases ≠ [] ∨ (noCasesLine (r.root env)).Encodable →
      (perform env fs r).2.result = .ok 0 ∨ (perform env fs r).2.result = .ok 1) := by
  have hreports := h.run hrebuild
  obtain ⟨rs, hrs, hrun⟩ := runCases_of_reports hreports
  have hsummary := summary_of_results (r.root env) hrs
  rw [perform_run h.entry h.selected hlist hrebuild, reporting_of_ok (by rw [hrun])]
  constructor
  · intro e hnone he
    refine summarize_of_error ?_
    rw [hsummary, if_pos hnone]
    exact he
  · intro hline
    have hstatus : (summary (r.root env) rs).1.Encodable ∧
        ((summary (r.root env) rs).2 = 0 ∨ (summary (r.root env) rs).2 = 1) := by
      rw [hsummary]
      split
      next hnone => exact ⟨hline.resolve_left fun hne => hne hnone, .inl rfl⟩
      next =>
        split
        next => exact ⟨allPassedLine_encodable _, .inl rfl⟩
        next =>
          refine ⟨failedLine_encodable (fun c hc => ?_) _, .inr rfl⟩
          exact (hreports c (List.mem_filter.1 hc).1).name_encodable
    rw [summarize_of_encodable hstatus.1]
    exact hstatus.2.imp (congrArg Except.ok) (congrArg Except.ok)

/-! ## 3. Faults that escape -/

variable (env fs r) in
/-- The request ends with a fault instead of a status. -/
inductive Escapes : Fault → Prop
  /-- Discovery fails in a listing, where no fault is reported. -/
  | discovery {f : Fault} : r.list = true → findCases fs (r.root env) = .error f → Escapes f
  /-- A listing comes to the first name that cannot be printed. -/
  | name {before after : List Path} {c : Path} {e : Utf8.EncodeError} : r.list = true →
    findCases fs (r.root env) = .ok (before ++ c :: after) → (∀ b ∈ before, b.name.Encodable) →
    Utf8.encodeError? c.name = some e → Escapes (.unencodable e)
  /-- The first fault is of a kind that is not reported. -/
  | unreported {f : Fault} : r.list = false → Raises env fs r f → f.isReported = false → Escapes f
  /-- The message of the first fault cannot be printed. -/
  | message {f : Fault} {e : Utf8.EncodeError} : r.list = false → Raises env fs r f →
    f.isReported = true → Utf8.encodeError? ("❌ " ++ f.message) = some e → Escapes (.unencodable e)
  /-- There is no case, and the root in the line that says so cannot be printed. -/
  | noCases {name : Text} {e : Utf8.EncodeError} : r.list = false → r.rebuild = false →
    Succeeds env fs r name [] → Utf8.encodeError? (noCasesLine (r.root env)) = some e →
    Escapes (.unencodable e)

theorem listCases_result_ok {root : Path} {cases : List Path} (h : findCases fs root = .ok cases)
    (hnames : ∀ c ∈ cases, c.name.Encodable) : (listCases fs root).result = .ok 0 := by
  have hprint : Transcript.printLines (cases.map Path.name) = _ :=
    Transcript.printLines_of_encodable (List.forall_mem_map.2 hnames)
  rw [listCases, h, Transcript.bind_of_ok rfl]
  simp only [hprint]
  rfl

theorem listCases_result_error {root : Path} {before after : List Path} {c : Path}
    {e : Utf8.EncodeError} (h : findCases fs root = .ok (before ++ c :: after))
    (hbefore : ∀ b ∈ before, b.name.Encodable) (he : Utf8.encodeError? c.name = some e) :
    (listCases fs root).result = .error (.unencodable e) := by
  have hprint : Transcript.printLines (before.map Path.name ++ c.name :: after.map Path.name) = _ :=
    Transcript.printLines_of_error (List.forall_mem_map.2 hbefore) he
  rw [listCases, h, Transcript.bind_of_ok rfl, List.map_append, List.map_cons]
  simp only [hprint]
  rfl

/-- A fault that escapes is the result. -/
theorem Escapes.perform_result {f : Fault} (h : Escapes env fs r f) :
    (perform env fs r).2.result = .error f := by
  cases h with
  | discovery hlist hfound =>
    simp only [perform, hlist, if_true, listCases, hfound]
    rfl
  | name hlist hfound hbefore he =>
    simp only [perform, hlist, if_true]
    exact listCases_result_error hfound hbefore he
  | unreported hlist hraises hf =>
    rw [hraises.perform_result hlist, outcomeOf, hf]
    rfl
  | message hlist hraises hf he =>
    rw [hraises.perform_result hlist, outcomeOf, if_pos hf, he]
  | noCases hlist hrebuild hdone he => exact (hdone.run_result hlist hrebuild).1 _ rfl he

/-- Unless a fault escapes, the result is 0 or 1. -/
theorem escapes_or_returns (env : Environment) (fs : FileSystem) (r : Request) :
    (∃ f, Escapes env fs r f) ∨
      (perform env fs r).2.result = .ok 0 ∨ (perform env fs r).2.result = .ok 1 := by
  cases hlist : r.list with
  | true =>
    cases hfound : findCases fs (r.root env) with
    | error f => exact .inl ⟨f, .discovery hlist hfound⟩
    | ok cases =>
      rcases forall_or_first (fun c => c.name.Encodable) cases with
        hall | ⟨before, c, after, rfl, hbefore, hc⟩
      · refine .inr (.inl ?_)
        simp only [perform, hlist, if_true]
        exact listCases_result_ok hfound hall
      · obtain ⟨e, he⟩ := Text.exists_encodeError hc
        exact .inl ⟨_, .name hlist hfound hbefore he⟩
  | false =>
    rcases raises_or_succeeds env fs r with ⟨f, hf⟩ | ⟨name, cases, hdone⟩
    · cases hreported : f.isReported with
      | false => exact .inl ⟨f, .unreported hlist hf hreported⟩
      | true =>
        cases he : Utf8.encodeError? ("❌ " ++ f.message) with
        | some e => exact .inl ⟨_, .message hlist hf hreported he⟩
        | none =>
          refine .inr (.inr ?_)
          rw [hf.perform_result hlist, outcomeOf, if_pos hreported, he]
    · cases hrebuild : r.rebuild with
      | true => exact .inr (.inl (hdone.rebuild_result hlist hrebuild))
      | false =>
        by_cases hline : cases ≠ [] ∨ (noCasesLine (r.root env)).Encodable
        · exact .inr ((hdone.run_result hlist hrebuild).2 hline)
        · simp only [not_or, not_not] at hline
          obtain ⟨rfl, hroot⟩ := hline
          obtain ⟨e, he⟩ := Text.exists_encodeError hroot
          exact .inl ⟨_, .noCases hlist hrebuild hdone he⟩

/-! ## 4. What is behind them -/

variable (env fs r) in
/-- The texts that the command shows as they are and that it takes from its arguments, its
environment and the file system. -/
inductive Shows : Text → Prop
  | name {up : Location} {n : FileName} : r.list = true → CaseAt fs (r.root env) up n →
    Shows (Utf8.decodeSystem n)
  | entry {t : Text} : r.Chooses env fs t → Shows t
  | case {t : Text} : r.case = some t → Shows t
  | root : Shows (r.root env).toText
  | config : Shows ((r.root env).child configFile).toText
  | inputs {up : Location} {n : FileName} : CaseAt fs (r.root env) up n →
    Shows ((casePath (r.root env) n).child inputsFile).toText

variable (env fs r) in
/-- Why a fault escapes. -/
inductive Cause : Fault → Prop
  | tooLong {p : Path} : Consults env fs r p ∨ Meets fs (r.root env) p → p.TooLong →
    Cause (.refused .nameTooLong p.toText)
  | directory {p : Path} {l : Location} : Consults env fs r p → fs.locate p = .ok l →
    fs.lookup? l = some .directory → Cause (.refused .isDirectory p.toText)
  | nested {p : Path} {t : List Char} {container : Json.Container} : Consults env fs r p →
    fs.readText p = .ok t → Json.read t = .error (.nestedTooDeeply container) →
    Cause (.unreadable (.nestedTooDeeply container))
  | unprintable {t : Text} {e : Utf8.EncodeError} : Shows env fs r t → ¬ t.Encodable →
    Cause (.unencodable e)

theorem Raises.trouble {f : Fault} (h : Raises env fs r f) : Trouble env fs r f := by
  cases h with
  | entry hname => exact entryName_trouble hname
  | select _ hcases => exact selectCases_trouble hcases
  | run _ hname hcases _ hc =>
    cases hc with
    | run hf => exact runCase_trouble hname hcases (by simp) hf
    | print => exact .line
  | rebuild _ hname hcases _ hc =>
    cases hc with
    | rebuild hf => exact rebuildCase_trouble hname hcases (by simp) hf
    | print => exact .line

/-- Of what can be wrong, the operating system's refusals and nesting are not reported. -/
theorem Trouble.cause_of_unreported {f : Fault} (h : Trouble env fs r f) (hf : f.isReported = false) :
    Cause env fs r f := by
  cases h with
  | file hp hfault =>
    cases hfault with
    | tooLong hlong => exact .tooLong (.inl hp) hlong
    | directory hl hentry => exact .directory hp hl hentry
    | undecodable => contradiction
    | @unreadable t e ht he =>
      cases e with
      | nestedTooDeeply container => exact .nested hp ht he
      | malformed => contradiction
      | integerTooLong => contradiction
  | discovery hmet hlong => exact .tooLong (.inr hmet) hlong
  | config | inputs | entry | entryValue | entryNumeral | case | line => contradiction

/-- A message that cannot be printed shows a text that cannot. -/
theorem Trouble.shows_of_unprintable {f : Fault} (h : Trouble env fs r f)
    (hf : ¬ f.message.Encodable) : ∃ t, Shows env fs r t ∧ ¬ t.Encodable := by
  have htext : ∃ t ∈ f.texts, ¬ t.Encodable := by
    by_contra hall
    refine hf (Fault.message_encodable fun t ht => ?_)
    by_contra hne
    exact hall ⟨t, ht, hne⟩
  obtain ⟨t, ht, hne⟩ := htext
  cases h with
  | file hp hfault => cases hfault <;> exact absurd ht List.not_mem_nil
  | discovery | entryNumeral | line => exact absurd ht List.not_mem_nil
  | config =>
    obtain rfl := List.mem_singleton.1 ht
    exact ⟨_, .config, hne⟩
  | inputs hcase =>
    obtain rfl := List.mem_singleton.1 ht
    exact ⟨_, .inputs hcase, hne⟩
  | entry hchooses =>
    rcases List.mem_cons.1 ht with rfl | hknown
    · exact ⟨t, .entry hchooses, hne⟩
    · -- The names that are known can be printed.
      have hall : ∀ s ∈ EntryPoint.known.map Prod.fst, Text.Encodable s := by decide
      exact absurd (hall t hknown) hne
  | entryValue hshown =>
    obtain rfl := List.mem_singleton.1 ht
    exact absurd hshown hne
  | case hname =>
    rcases List.mem_cons.1 ht with rfl | hroot
    · exact ⟨t, .case hname, hne⟩
    · obtain rfl := List.mem_singleton.1 hroot
      exact ⟨_, .root, hne⟩

theorem not_encodable_of_error {t : Text} {e : Utf8.EncodeError} (h : Utf8.encodeError? t = some e) :
    ¬ t.Encodable := by
  intro ht
  rw [(Utf8.encodeError?_eq_none_iff t).2 ht] at h
  contradiction

theorem Escapes.cause {f : Fault} (h : Escapes env fs r f) : Cause env fs r f := by
  cases h with
  | discovery _ hfound =>
    obtain ⟨p, hmet, hlong, rfl⟩ := findCases_eq_error hfound
    exact .tooLong (.inr hmet) hlong
  | @name before after c e hlist hfound _ he =>
    have hname := not_encodable_of_error he
    have hc : c ∈ before ++ c :: after := by simp
    obtain ⟨up, n, hcase, rfl⟩ := (mem_findCases hfound).1 hc
    rw [casePath_name] at hname
    exact .unprintable (.name hlist hcase) hname
  | unreported _ hraises hf => exact hraises.trouble.cause_of_unreported hf
  | message _ hraises _ he =>
    have hline := not_encodable_of_error he
    rw [Text.encodable_append] at hline
    obtain ⟨t, hshows, ht⟩ := hraises.trouble.shows_of_unprintable fun hm =>
      hline ⟨Text.encodable_ofString _, hm⟩
    exact .unprintable hshows ht
  | noCases _ _ _ he =>
    have hline := not_encodable_of_error he
    rw [noCasesLine, Text.encodable_append] at hline
    exact .unprintable .root fun hroot => hline ⟨Text.encodable_ofString _, hroot⟩

end

/-! ## 5. The command -/

/-- For every request the command ends with the fault that escapes, and returns 0 or 1 if none does.
What escapes comes from a path that is too long, a directory in the place of a file, a file that
nests too deeply or a text that cannot be printed, and from nothing else. -/
theorem returns_unless_fault_escapes {args : List Text} {r : Request}
    (hr : parseRequest args = .proceed r) (env : Environment) (fs : FileSystem) :
    (∀ f, (goldenCommand env fs args).2.ending = .failed f ↔ Escapes env fs r f) ∧
    ((goldenCommand env fs args).2.ending = .returned 0 ∨
      (goldenCommand env fs args).2.ending = .returned 1 ↔ ¬ ∃ f, Escapes env fs r f) ∧
    ∀ f, Escapes env fs r f → Cause env fs r f := by
  rw [goldenCommand_of_request hr]
  simp only [Console.failed_iff, Console.returned_iff]
  have htotal := escapes_or_returns env fs r
  refine ⟨fun f => ⟨fun hf => ?_, Escapes.perform_result⟩, ⟨fun hok => ?_, htotal.resolve_left⟩,
    fun f => Escapes.cause⟩
  · rcases htotal with ⟨g, hg⟩ | hzero | hone
    · rw [hg.perform_result] at hf
      cases hf
      exact hg
    · rw [hzero] at hf
      contradiction
    · rw [hone] at hf
      contradiction
  · rintro ⟨f, hf⟩
    rw [hf.perform_result] at hok
    rcases hok with hzero | hone
    · contradiction
    · contradiction

/-- The locations of `misplaced`. -/
def misplacedAt : List Location :=
  [[Utf8.encodeSystem "golden"], [Utf8.encodeSystem configFile, Utf8.encodeSystem "golden"],
    [Utf8.encodeSystem "deep"], [Utf8.encodeSystem configFile, Utf8.encodeSystem "deep"]]

/-- The configuration of the root `golden` is a directory, and the one of the root `deep` is a
file. -/
def misplaced (content : Bytes) : FileSystem where
  entries := misplacedAt.zip [.directory, .directory, .directory, .file content]
  workingDirectory := []
  distinct := by
    change misplacedAt.Nodup
    decide
  valid e he := by
    have hall : ∀ l ∈ misplacedAt, Location.Valid l := by decide
    exact hall e.1 (List.of_mem_zip he).1

theorem misplaced_fault_escapes :
    Escapes unset (misplaced []) {} (.refused .isDirectory "golden/config.json") ∧
    Cause unset (misplaced []) {} (.refused .isDirectory "golden/config.json") ∧
    ¬ ∃ f, Escapes unset oneCase {} f := by
  obtain ⟨hfault, -, hcause⟩ := @returns_unless_fault_escapes [] {} rfl unset (misplaced [])
  obtain ⟨-, hreturns, -⟩ := @returns_unless_fault_escapes [] {} rfl unset oneCase
  have hescapes := (hfault (.refused .isDirectory "golden/config.json")).1 (by decide)
  exact ⟨hescapes, hcause _ hescapes, hreturns.1 (.inr (by decide))⟩

def atDeep : Request := { dir := some "deep" }

/-- A configuration that opens too many arrays. -/
theorem atDeep_entryName {n : Nat} (h : Json.nestingLimit < n) :
    atDeep.entryName unset (misplaced (Utf8.encodeChars (List.replicate n '['))) =
      .error (.unreadable (.nestedTooDeeply .array)) := by
  -- Where the file is does not depend on what it holds.
  have hpresent : ∀ content,
      (misplaced content).present ((atDeep.root unset).child configFile) = .ok true := fun _ => rfl
  have hfile : ∀ content,
      (misplaced content).readFile ((atDeep.root unset).child configFile) = .ok content := fun _ => rfl
  generalize hcontent : Utf8.encodeChars (List.replicate n '[') = content
  have htext : (misplaced content).readText ((atDeep.root unset).child configFile) =
      .ok (List.replicate n '[') := by
    refine FileSystem.readText_eq_ok_iff.2 ⟨_, List.replicate n '[', hfile content, ?_, ?_⟩
    · rw [← hcontent, Utf8.decode_encodeChars]
    · exact (unifyLineEndings_eq_self fun hcr => by cases List.eq_of_mem_replicate hcr).symm
  have hread := Json.read_brackets h []
  rw [List.append_nil] at hread
  have hjson : (misplaced content).readJson ((atDeep.root unset).child configFile) =
      .error (.unreadable (.nestedTooDeeply .array)) := by
    simp only [FileSystem.readJson, htext, hread]
  have hconfig : loadConfig (misplaced content) (atDeep.root unset) =
      .error (.unreadable (.nestedTooDeeply .array)) := by
    rw [loadConfig, hpresent, ok_bind, if_pos rfl, hjson, error_bind]
  change loadConfig (misplaced content) (atDeep.root unset) >>= _ = _
  rw [hconfig, error_bind]

/-- A directory in the place of the configuration, nesting and an entry name that cannot be printed
end the command without a status. -/
theorem misplaced_returns_no_status :
    (goldenCommand unset (misplaced []) []).2.ending =
      .failed (.refused .isDirectory "golden/config.json") ∧
    (goldenCommand unset (misplaced (Utf8.encodeChars (List.replicate 6000 '[')))
      ["--dir", "deep"]).2.ending = .failed (.unreadable (.nestedTooDeeply .array)) ∧
    (goldenCommand unset (misplaced []) ["--entry", [.surrogate 0]]).2.ending =
      .failed (.unencodable ⟨26, .surrogate 0, 1⟩) := by
  refine ⟨by decide, ?_, by decide⟩
  rw [@goldenCommand_of_request _ atDeep rfl, Console.failed_iff]
  refine Escapes.perform_result (.unreported rfl (.entry (atDeep_entryName ?_)) rfl)
  decide

end Golden
end GoldenCheck
