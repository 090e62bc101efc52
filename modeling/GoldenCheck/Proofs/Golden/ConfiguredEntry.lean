import GoldenCheck.Proofs.Golden.AllOrNothing
import GoldenCheck.Proofs.Golden.Configuration
import GoldenCheck.Proofs.Golden.Confinement

/-!
# What becomes of a configured entry point

A value that the configuration gives for the entry point is used if it is a name that is known, and
refused before any case is looked at if it is another text or no text.  A void value is neither: it
is passed over as if none were given, and the check takes its place, although 0, false and the empty
containers are no texts and the empty text is no name.
-/

namespace GoldenCheck
namespace Golden

/-! ## 1. Where the value comes from -/

/-- Neither the request nor the environment names an entry point. -/
structure LeavesEntry (r : Request) (env : Environment) : Prop where
  request : r.entry = none ∨ r.entry = some []
  environment : env.entryFunc = none ∨ env.entryFunc = some []

/-- The configuration of a root is an object that gives `v` for the entry point. -/
def ConfiguresEntry (fs : FileSystem) (root : Path) (v : Json.Value) : Prop :=
  ∃ config : Json.Fields, fs.readJson (root.child configFile) = .ok (.object config) ∧
    config.get? entryField = some v

section
variable {r : Request} {env : Environment} {fs : FileSystem} {v : Json.Value}

theorem LeavesEntry.entryName_eq (h : LeavesEntry r env) :
    r.entryName env fs = loadConfig fs (r.root env) >>= fun config =>
      (EntryPoint.ofValue (entryValue env config)).map Prod.fst := by
  have hnone : chosen? r.entry = none := by
    rcases h.request with hr | hr
    · rw [hr]; rfl
    · rw [hr]; rfl
  rw [Request.entryName, hnone]

theorem LeavesEntry.entryValue_eq (h : LeavesEntry r env) {config : Json.Fields}
    (hv : config.get? entryField = some v) :
    entryValue env config = if v.isVoid then .string EntryPoint.smallPrime.name else v := by
  have hnone : chosenBy? env.entryFunc = none := by
    rcases h.environment with he | he
    · rw [he]; rfl
    · rw [he]; rfl
  rw [entryValue, hnone]
  simp only [hv]

/-- The value counts, unless it is void. -/
theorem entryName_of_configured (h : LeavesEntry r env) (hv : ConfiguresEntry fs (r.root env) v) :
    r.entryName env fs =
      (EntryPoint.ofValue (if v.isVoid then .string EntryPoint.smallPrime.name else v)).map
        Prod.fst := by
  obtain ⟨config, hread, hget⟩ := hv
  obtain ⟨t, ht, -⟩ := FileSystem.readJson_eq_ok_iff.1 hread
  obtain ⟨content, -, hfile, -⟩ := FileSystem.readText_eq_ok_iff.1 ht
  rw [h.entryName_eq, loadConfig_object (present_of_readFile hfile) hread, ok_bind,
    h.entryValue_eq hget]

/-- No integer in a value of the configuration is too long to be shown. -/
theorem ConfiguresEntry.short {root : Path} (h : ConfiguresEntry fs root v) : v.Short := by
  obtain ⟨config, hread, hget⟩ := h
  obtain ⟨t, -, ht⟩ := FileSystem.readJson_eq_ok_iff.1 hread
  exact Json.Value.short_object_iff.1 (Json.read_short ht) _ (Json.Fields.mem_of_get? hget)

end

/-! ## 2. Values that name nothing -/

/-- The fault of a value that is not the name of an entry point. -/
inductive Misnames : Json.Value → Fault → Prop
  | unknown {t : Text} : (∀ entry, (t, entry) ∉ EntryPoint.known) →
    Misnames (.string t) (.unknownEntry t (EntryPoint.known.map Prod.fst))
  | notText {v : Json.Value} {shown : Text} : (∀ t, v ≠ .string t) → v.display? = some shown →
    Misnames v (.entryNotText shown)

theorem Misnames.ofValue_eq {v : Json.Value} {f : Fault} (h : Misnames v f) :
    EntryPoint.ofValue v = .error f := by
  cases h with
  | unknown hnone => simp only [EntryPoint.ofValue, EntryPoint.ofName_eq_error_iff.2 ⟨hnone, rfl⟩]
  | notText hother hshown =>
    cases v with
    | string t => exact absurd rfl (hother t)
    | null | bool | int | float | array | object => simp only [EntryPoint.ofValue, hshown]

/-- Such a value is refused in a message that can be printed, unless it is a text that cannot. -/
theorem Misnames.message_encodable {v : Json.Value} {f : Fault} (h : Misnames v f)
    (hv : ∀ t, v = .string t → t.Encodable) : f.message.Encodable := by
  apply Fault.message_encodable
  cases h with
  | unknown _ =>
    have hknown : ∀ s ∈ EntryPoint.known.map Prod.fst, Text.Encodable s := by decide
    exact List.forall_mem_cons.2 ⟨hv _ rfl, hknown⟩
  | notText _ hshown =>
    intro t ht
    rw [List.mem_singleton.1 ht]
    exact Json.display?_encodable _ hshown

theorem Misnames.isReported {v : Json.Value} {f : Fault} (h : Misnames v f) :
    f.isReported = true := by
  cases h with
  | unknown => rfl
  | notText => rfl

theorem exists_misnames {v : Json.Value} (hv : v.Short)
    (h : ∀ name entry, (name, entry) ∈ EntryPoint.known → v ≠ .string name) : ∃ f, Misnames v f := by
  by_cases htext : ∃ t, v = .string t
  · obtain ⟨t, rfl⟩ := htext
    exact ⟨_, .unknown fun entry hknown => h t entry hknown rfl⟩
  · obtain ⟨shown, hshown⟩ := hv.exists_display
    exact ⟨_, .notText (fun t ht => htext ⟨t, ht⟩) hshown⟩

/-! ## 3. The command -/

theorem EntryPoint.known_ne_nil : ∀ e ∈ EntryPoint.known, e.1 ≠ [] := by decide

section
variable {r : Request} {env : Environment} {fs : FileSystem}

/-- A request does the same if it names the entry point that it would find. -/
theorem perform_of_entryName {name : Text} (h : r.entryName env fs = .ok name) :
    perform env fs { r with entry := some name } = perform env fs r := by
  obtain ⟨-, entry, hentry⟩ := entryName_eq_ok_iff.1 h
  have hne : name ≠ [] := EntryPoint.known_ne_nil _ (EntryPoint.ofName_eq_ok_iff.1 hentry)
  have hnamed : ({ r with entry := some name } : Request).entryName env fs = .ok name :=
    entryName_eq_ok_iff.2 ⟨.inl ⟨rfl, hne⟩, entry, hentry⟩
  simp only [perform, h, hnamed]
  rfl

/-- A request whose entry point is refused shows the message and nothing else. -/
theorem perform_of_fault {f : Fault} (hlist : r.list = false) (h : r.entryName env fs = .error f)
    (hf : f.isReported = true) :
    (perform env fs r).1 = fs ∧
      (f.message.Encodable →
        Console.ofTranscript (perform env fs r).2 =
          ⟨Text.lines ["❌ " ++ f.message], [], .returned 1⟩) ∧
      (¬ f.message.Encodable →
        ∃ e, Console.ofTranscript (perform env fs r).2 = ⟨[], [], .failed (.unencodable e)⟩) := by
  have hline : Text.Encodable ("❌ " ++ f.message) ↔ f.message.Encodable := by
    simp [Text.encodable_append]
  have hperform : perform env fs r = (fs, reporting (.ofExcept (.error f)) pure) := by
    simp only [perform, hlist, h]
    rfl
  rw [hperform]
  refine ⟨rfl, fun hm => ?_, fun hm => ?_⟩
  · rw [reporting_encodable rfl hf (hline.2 hm)]
    rfl
  · obtain ⟨e, he⟩ := Text.exists_encodeError fun henc => hm (hline.1 henc)
    rw [reporting_unencodable rfl hf he]
    exact ⟨e, rfl⟩

end

/-- What the command does with a value that the configuration gives for the entry point and that
nothing overrides.  A void value makes it do what it does for the check, and a name that is known
what it does for that name.  Any other value is refused: nothing is changed, no line about a case is
printed, and the status is 1 unless the value is a text that cannot be printed. -/
theorem configured_entry_used_or_refused {args : List Text} {r : Request}
    (hr : parseRequest args = .proceed r) (hlist : r.list = false) {env : Environment}
    (hleaves : LeavesEntry r env) {fs : FileSystem} {v : Json.Value}
    (hv : ConfiguresEntry fs (r.root env) v) :
    (v.isVoid = true → ∀ args', parseRequest args' =
        .proceed { r with entry := some EntryPoint.smallPrime.name } →
      goldenCommand env fs args = goldenCommand env fs args') ∧
    (∀ name entry, (name, entry) ∈ EntryPoint.known → v = .string name →
      ∀ args', parseRequest args' = .proceed { r with entry := some name } →
        goldenCommand env fs args = goldenCommand env fs args') ∧
    (v.isVoid = false → (∀ name entry, (name, entry) ∈ EntryPoint.known → v ≠ .string name) →
      ∃ f, Misnames v f ∧ (goldenCommand env fs args).1 = fs ∧
        ((goldenCommand env fs args).2 = ⟨Text.lines ["❌ " ++ f.message], [], .returned 1⟩ ∨
          ∃ t e, v = .string t ∧ ¬ t.Encodable ∧
            (goldenCommand env fs args).2 = ⟨[], [], .failed (.unencodable e)⟩)) := by
  have hname := entryName_of_configured hleaves hv
  have hsame : ∀ name, r.entryName env fs = .ok name → ∀ args',
      parseRequest args' = .proceed { r with entry := some name } →
      goldenCommand env fs args = goldenCommand env fs args' := by
    intro name hfound args' hr'
    rw [goldenCommand_of_request hr, goldenCommand_of_request hr', perform_of_entryName hfound]
  refine ⟨fun hvoid => hsame _ ?_, ?_, fun hvoid hother => ?_⟩
  · rw [hname, hvoid]
    rfl
  · rintro name entry hknown rfl
    apply hsame
    have hfull : (Json.Value.string name).isVoid = false := by
      simpa [Json.Value.isVoid] using EntryPoint.known_ne_nil _ hknown
    have hentry := EntryPoint.ofName_eq_ok_iff.2 hknown
    rw [hname, hfull, if_neg Bool.false_ne_true, ofValue_eq_ok_iff.2 ⟨rfl, hentry⟩]
    rfl
  · obtain ⟨f, hf⟩ := exists_misnames hv.short hother
    have hrefused : r.entryName env fs = .error f := by
      rw [hname, hvoid, if_neg Bool.false_ne_true, hf.ofValue_eq]
      rfl
    obtain ⟨hkept, hshown, hfailed⟩ := perform_of_fault hlist hrefused hf.isReported
    rw [goldenCommand_of_request hr]
    refine ⟨f, hf, hkept, ?_⟩
    by_cases hm : f.message.Encodable
    · exact .inl (hshown hm)
    · have htext : ∃ t, v = .string t ∧ ¬ t.Encodable := by
        by_contra hnone
        refine hm (hf.message_encodable fun t ht => ?_)
        by_contra hne
        exact hnone ⟨t, ht, hne⟩
      obtain ⟨t, ht, hne⟩ := htext
      obtain ⟨e, he⟩ := hfailed hm
      exact .inr ⟨t, e, ht, hne, he⟩

/-! ## 4. Written configurations -/

/-- The file system `oneCase` with a configuration that gives `v` for the entry point. -/
def entryConfigured (v : Json.Value) : FileSystem :=
  oneCase.put [Utf8.encodeSystem configFile, Utf8.encodeSystem "golden"]
    (.file (Utf8.encodeChars (Json.Value.object [(entryField, v)]).toJson)) (by decide)

theorem entryConfigured_configures {v : Json.Value} (hv : Json.Writable 500 v) :
    ConfiguresEntry (entryConfigured v) (Path.ofText "golden") v.settled := by
  have hpair : Json.Writable 501 (.object [(entryField, v)]) := by
    apply Json.Writable.object
    · simp only [List.forall_mem_cons]
      exact ⟨by decide, List.forall_mem_nil _⟩
    · simp only [List.forall_mem_cons]
      exact ⟨hv, List.forall_mem_nil _⟩
  have hwrite : oneCase.writeFile ((Path.ofText "golden").child configFile)
      (Utf8.encodeChars (Json.Value.object [(entryField, v)]).toJson) = .ok (entryConfigured v) :=
    FileSystem.writeFile_eq_ok_iff.2 ⟨_, by decide, by decide +kernel, by decide +kernel, rfl⟩
  have hread := readJson_written hpair (by decide) hwrite
  exact ⟨_, hread, rfl⟩

/-- A list that is not empty is refused, a name is used, and 0 stands for the check. -/
theorem entryConfigured_used_or_refused :
    ConfiguresEntry (entryConfigured (.array [.string "x"])) (Path.ofText "golden")
      (.array [.string "x"]) ∧
    goldenCommand unset (entryConfigured (.array [.string "x"])) ["--rebuild"] =
      (entryConfigured (.array [.string "x"]),
        ⟨"❌ Entry function name must be a string, got ['x']\n", [], .returned 1⟩) ∧
    goldenCommand unset (entryConfigured (.string "first_divisor")) ["--rebuild"] =
      goldenCommand unset (entryConfigured (.string "first_divisor"))
        ["--rebuild", "--entry", "first_divisor"] ∧
    goldenCommand unset (entryConfigured (.int 0)) ["--rebuild"] =
      goldenCommand unset (entryConfigured (.int 0)) ["--rebuild", "--entry", "is_small_prime"] := by
  have hleaves : LeavesEntry { rebuild := true } unset := ⟨.inl rfl, .inl rfl⟩
  have hlist : ConfiguresEntry (entryConfigured (.array [.string "x"])) (Path.ofText "golden")
      (.array [.string "x"]) := by
    refine entryConfigured_configures (.array ?_)
    simp only [List.forall_mem_cons]
    exact ⟨.string (by decide), List.forall_mem_nil _⟩
  have hname : ConfiguresEntry (entryConfigured (.string "first_divisor")) (Path.ofText "golden")
      (.string "first_divisor") := entryConfigured_configures (.string (by decide))
  have hzero : ConfiguresEntry (entryConfigured (.int 0)) (Path.ofText "golden") (.int 0) :=
    entryConfigured_configures (.int (by decide))
  obtain ⟨-, -, hrefused⟩ :=
    @configured_entry_used_or_refused ["--rebuild"] { rebuild := true } rfl rfl _ hleaves _ _ hlist
  obtain ⟨-, hused, -⟩ :=
    @configured_entry_used_or_refused ["--rebuild"] { rebuild := true } rfl rfl _ hleaves _ _ hname
  obtain ⟨hpassed, -, -⟩ :=
    @configured_entry_used_or_refused ["--rebuild"] { rebuild := true } rfl rfl _ hleaves _ _ hzero
  refine ⟨hlist, ?_, hused "first_divisor" .firstDivisor (by decide) rfl _ rfl, hpassed rfl _ rfl⟩
  obtain ⟨f, hf, hkept, hshown⟩ := hrefused rfl (by simp)
  cases hf with
  | notText _ hdisplay =>
    obtain rfl := Option.some.inj hdisplay
    rcases hshown with hshown | ⟨t, e, ht, -⟩
    · refine Prod.ext hkept (hshown.trans ?_)
      decide +kernel
    · cases ht

/-- An empty list and the other void values are no names of entry points, and yet the case is
rebuilt, as the check has it. -/
theorem entryConfigured_void_replaced :
    ConfiguresEntry (entryConfigured (.array [])) (Path.ofText "golden") (.array []) ∧
    (∀ name entry, (name, entry) ∈ EntryPoint.known → Json.Value.array [] ≠ .string name) ∧
    parseRequest ["--rebuild"] = .proceed { rebuild := true } ∧
    LeavesEntry { rebuild := true } unset ∧
    ∀ v ∈ [Json.Value.array [], .object [], .bool false, .int 0, .string []],
      (entryConfigured v).readFile (Path.ofText "golden/a/expected") = .error .notFound ∧
      (goldenCommand unset (entryConfigured v) ["--rebuild"]).2 =
        ⟨"✅ Rebuilt golden/a/expected\n", [], .returned 0⟩ ∧
      (goldenCommand unset (entryConfigured v) ["--rebuild"]).1.readFile
        (Path.ofText "golden/a/expected") = .ok (Utf8.encodeSystem "is_small_prime(2) = 1\n") := by
  refine ⟨entryConfigured_configures (.array (List.forall_mem_nil _)), by simp, rfl,
    ⟨.inl rfl, .inl rfl⟩, ?_⟩
  decide +kernel

end Golden
end GoldenCheck
