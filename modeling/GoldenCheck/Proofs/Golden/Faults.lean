import GoldenCheck.Proofs.Golden.Discovery
import GoldenCheck.Proofs.Golden.EntryChoice
import GoldenCheck.Proofs.Golden.Report

/-!
# What can be wrong

A request looks at the configuration of its root and at the inputs and the expected file of its
cases, at each only once it is known to be there.  So a step can fail for a few reasons only: such a
path is too long, a directory or a file with another content than it should have, or a name is not
known.
-/

namespace GoldenCheck

/-! ## 1. Messages that can be printed -/

theorem Text.encodable_join {sep : Text} {ts : List Text} (hsep : sep.Encodable)
    (h : ∀ t ∈ ts, t.Encodable) : (Text.join sep ts).Encodable := by
  induction ts with
  | nil => exact List.forall_mem_nil _
  | cons t ts ih =>
    have ht := h t List.mem_cons_self
    have hts := ih fun s hs => h s (List.mem_cons_of_mem t hs)
    cases ts with
    | nil => exact ht
    | cons s ts =>
      rw [Text.join, Text.encodable_append, Text.encodable_append]
      · exact ⟨⟨ht, hsep⟩, hts⟩
      · exact List.cons_ne_nil s ts

@[simp] theorem Text.encodable_ofString (s : String) : (Text.ofString s).Encodable :=
  Text.encodable_ofChars _

namespace Fault

@[simp] theorem number_encodable (n : Nat) : (number n).Encodable := Text.encodable_ofChars _

theorem decodeText_encodable (e : Utf8.DecodeError) : (decodeText e).Encodable := by
  have hflaw : (flawText e.flaw).Encodable := by cases e.flaw <;> exact Text.encodable_ofString _
  unfold decodeText
  split <;> simp [hflaw, Text.encodable_ofChars]

theorem encodeText_encodable (e : Utf8.EncodeError) : (encodeText e).Encodable := by
  unfold encodeText
  split <;> simp [Text.encodable_ofChars]

theorem readText_encodable (e : Json.ReadError) : (readText e).Encodable := by
  unfold readText
  split
  next problem place =>
    have hproblem : (problemText problem).Encodable := by
      cases problem <;> exact Text.encodable_ofString _
    simp [hproblem]
  · simp [digitLimitText, raiseLimitText]
  · exact Text.encodable_ofString _
  · exact Text.encodable_ofString _

/-- Paths are quoted in these messages, with surrogate halves by their numbers. -/
theorem refusalText_encodable (path : Text) (r : Refusal) : (refusalText path r).Encodable := by
  have hpath : path.quoted.Encodable := Text.encodable_ofChars _
  cases r <;> simp [refusalText, hpath, encodeText_encodable]

/-- The texts that the message of a fault shows as they are. -/
def texts : Fault → List Text
  | .configNotObject path => [path]
  | .inputsNotIntegers path => [path]
  | .entryNotText shown => [shown]
  | .unknownEntry name known => name :: known
  | .unknownCase name root => [name, root]
  | _ => []

/-- A message can be printed if the texts that it shows as they are can. -/
theorem message_encodable {f : Fault} (h : ∀ t ∈ f.texts, t.Encodable) : f.message.Encodable := by
  cases f with
  | notInteger typeName => simp [message]
  | outOfDomain word => simp [message]
  | numeralTooLong => simp [message, digitLimitText, raiseLimitText]
  | undecodable e => exact decodeText_encodable e
  | unencodable e => exact encodeText_encodable e
  | unreadable e => exact readText_encodable e
  | refused refusal path => exact refusalText_encodable path refusal
  | configNotObject path => simpa [message, texts] using h
  | inputsNotIntegers path => simpa [message, texts] using h
  | entryNotText shown => simpa [message, texts] using h
  | unknownEntry name known =>
    obtain ⟨hname, hknown⟩ := List.forall_mem_cons.1 h
    simp [message, hname, Text.encodable_join (Text.encodable_ofString ", ") hknown]
  | unknownCase name root => simpa [message, texts] using h

end Fault

/-! ## 2. The text of a value -/

namespace Json

mutual

/-- The text of a value can be printed, since strings are quoted in it. -/
theorem display?_encodable (v : Value) {t : Text} (h : v.display? = some t) : t.Encodable := by
  cases v with
  | null => cases h; exact Text.encodable_ofString _
  | bool b => cases h; cases b <;> exact Text.encodable_ofString _
  | int n =>
    obtain ⟨cs, -, rfl⟩ := Option.map_eq_some_iff.1 h
    exact Text.encodable_ofChars cs
  | float x => cases h; exact Text.encodable_ofChars _
  | string s => cases h; exact Text.encodable_ofChars _
  | array vs =>
    rw [Value.display?] at h
    obtain ⟨ts, hts, rfl⟩ := Option.map_eq_some_iff.1 h
    simp [Text.encodable_join (Text.encodable_ofString ", ") (displayItems?_encodable vs hts)]
  | object fs =>
    rw [Value.display?] at h
    obtain ⟨ts, hts, rfl⟩ := Option.map_eq_some_iff.1 h
    simp [Text.encodable_join (Text.encodable_ofString ", ") (displayFields?_encodable fs hts)]

theorem displayItems?_encodable (vs : List Value) {ts : List Text} (h : displayItems? vs = some ts) :
    ∀ t ∈ ts, t.Encodable := by
  cases vs with
  | nil => cases h; exact List.forall_mem_nil _
  | cons v vs =>
    rw [displayItems?] at h
    split at h
    next s ss hs hss =>
      cases h
      exact List.forall_mem_cons.2 ⟨display?_encodable v hs, displayItems?_encodable vs hss⟩
    next => contradiction

theorem displayFields?_encodable (fs : List (Text × Value)) {ts : List Text}
    (h : displayFields? fs = some ts) : ∀ t ∈ ts, t.Encodable := by
  cases fs with
  | nil => cases h; exact List.forall_mem_nil _
  | cons f fs =>
    obtain ⟨name, v⟩ := f
    rw [displayFields?] at h
    split at h
    next s ss hs hss =>
      cases h
      have hname : name.quoted.Encodable := Text.encodable_ofChars _
      refine List.forall_mem_cons.2 ⟨?_, displayFields?_encodable fs hss⟩
      simp [hname, display?_encodable v hs]
    next => contradiction

end

/-! ## 3. Nesting -/

theorem skipSpace_bracket (s : List Char) : skipSpace ('[' :: s) = '[' :: s := rfl

/-- An array fails with its first item. -/
theorem array_of_error {item : List Char → Read Value} {width : Nat} {s : List Char} {e : Stop}
    (h : item ('[' :: s) = .error e) : array item (width + 1) ('[' :: s) = .error e := by
  have hitems : items item (width + 1) ('[' :: s) = .error e := by simp only [items, h]
  simp [array, skipSpace_bracket, hitems]

theorem value_brackets {width depth n : Nat} (hwidth : 0 < width) (h : depth < n) (rest : List Char) :
    value width depth (List.replicate n '[' ++ rest) = .error (.nestedTooDeeply .array) := by
  obtain ⟨width, rfl⟩ : ∃ w, width = w + 1 := ⟨width - 1, by omega⟩
  induction depth generalizing n with
  | zero =>
    obtain ⟨n, rfl⟩ : ∃ m, n = m + 1 := ⟨n - 1, by omega⟩
    rfl
  | succ depth ih =>
    -- Behind the first bracket comes an item that nests too deeply for the depth that is left.
    obtain ⟨n, rfl⟩ : ∃ m, n = m + 2 := ⟨n - 2, by omega⟩
    exact array_of_error (ih (n := n + 1) (by omega))

/-- A text that opens more arrays than the limit allows nests too deeply, whatever follows. -/
theorem read_brackets {n : Nat} (h : nestingLimit < n) (rest : List Char) :
    read (List.replicate n '[' ++ rest) = .error (.nestedTooDeeply .array) := by
  have hdocument : document nestingLimit (List.replicate n '[' ++ rest) =
      .error (.nestedTooDeeply .array) := by
    obtain ⟨n, rfl⟩ : ∃ m, n = m + 1 := ⟨n - 1, by omega⟩
    have hvalue := @value_brackets (n + rest.length + 1) _ _ (by omega) h rest
    rw [List.replicate_succ, List.cons_append] at hvalue ⊢
    simp [document, skipSpace_bracket, hvalue]
  rw [read, hdocument]
  rfl

end Json

namespace Golden

/-! ## 4. Files -/

/-- What is wrong with a file or its path. -/
inductive FileFault (fs : FileSystem) (p : Path) : Fault → Prop
  | tooLong : p.TooLong → FileFault fs p (.refused .nameTooLong p.toText)
  | directory {l : Location} : fs.locate p = .ok l → fs.lookup? l = some .directory →
    FileFault fs p (.refused .isDirectory p.toText)
  | undecodable {content : Bytes} {e : Utf8.DecodeError} : fs.readFile p = .ok content →
    Utf8.decode content = .error e → FileFault fs p (.undecodable e)
  | unreadable {t : List Char} {e : Json.ReadError} : fs.readText p = .ok t →
    Json.read t = .error e → FileFault fs p (.unreadable e)

namespace FileFault

variable {fs : FileSystem} {p : Path} {f : Fault}

theorem of_present (h : fs.present p = .error f) : FileFault fs p f := by
  obtain ⟨hlong, rfl⟩ := FileSystem.present_eq_error_iff.1 h
  exact .tooLong (FileSystem.tooLong_of_locate hlong)

theorem of_readText (hp : fs.present p = .ok true) (h : fs.readText p = .error f) :
    FileFault fs p f := by
  cases hl : fs.locate p with
  | error r =>
    -- What is there has a location.
    rw [FileSystem.present, mapError_eq_ok_iff, FileSystem.exists?,
      FileSystem.holds_of_locate_error hl] at hp
    by_cases habsent : r.meansAbsent = true <;> simp [habsent] at hp
  | ok l =>
    rw [FileSystem.present_of_locate hl] at hp
    cases hentry : fs.lookup? l with
    | none =>
      rw [hentry] at hp
      contradiction
    | some x =>
      cases x with
      | directory =>
        simp only [FileSystem.readText, FileSystem.readFile, FileSystem.stat, hl, hentry] at h
        cases h
        exact .directory hl hentry
      | file content =>
        have hfile : fs.readFile p = .ok content := FileSystem.readFile_eq_ok_iff.2 ⟨l, hl, hentry⟩
        simp only [FileSystem.readText, hfile] at h
        split at h
        next e he =>
          cases h
          exact .undecodable hfile he
        next => contradiction

theorem of_readJson (hp : fs.present p = .ok true) (h : fs.readJson p = .error f) :
    FileFault fs p f := by
  unfold FileSystem.readJson at h
  split at h
  next g hg =>
    cases h
    exact of_readText hp hg
  next t ht =>
    split at h
    next e he =>
      cases h
      exact .unreadable ht he
    next => contradiction

/-- Where the directory is there, only the expected file itself can keep it from being written. -/
theorem of_writeFile {up : Location} {n : FileName} (hp : fs.locate p = .ok (n :: up))
    (hdir : fs.lookup? (n :: up) = some .directory) {content : Bytes} {r : Refusal}
    (h : fs.writeFile (p.child expectedFile) content = .error r) :
    FileFault fs (p.child expectedFile) (.refused r (p.child expectedFile).toText) := by
  unfold FileSystem.writeFile at h
  rcases expectedFile_plain.locate_child_of hp hdir with hl | hlong
  · rw [hl] at h
    have hvalid : Location.Valid (Utf8.encodeSystem expectedFile :: n :: up) := by
      have hfolder := FileSystem.valid_of_lookup? hdir (List.cons_ne_nil n up)
      exact ⟨List.cons_ne_nil _ _, List.forall_mem_cons.2 ⟨expectedFile_plain.valid, hfolder.2⟩⟩
    simp only [dif_pos hvalid] at h
    split at h
    next hentry =>
      cases h
      exact .directory hl hentry
    next => contradiction
  · rw [hlong] at h
    cases h
    exact .tooLong (FileSystem.tooLong_of_locate hlong)

end FileFault

/-! ## 5. Requests -/

section
variable (env : Environment) (fs : FileSystem) (r : Request)

/-- The files that a request looks at. -/
inductive Consults : Path → Prop
  | config : r.entry = none ∨ r.entry = some [] → Consults ((r.root env).child configFile)
  | inputs {up : Location} {n : FileName} : CaseAt fs (r.root env) up n →
    Consults ((casePath (r.root env) n).child inputsFile)
  | expected {up : Location} {n : FileName} : CaseAt fs (r.root env) up n →
    Consults ((casePath (r.root env) n).child expectedFile)

/-- What can be wrong with a request: a file, a path that discovery meets, the configuration, the
name of the entry point or of the case, or a line that is to be printed. -/
inductive Trouble : Fault → Prop
  | file {p : Path} {f : Fault} : Consults env fs r p → FileFault fs p f → Trouble f
  | discovery {p : Path} : Meets fs (r.root env) p → p.TooLong →
    Trouble (.refused .nameTooLong p.toText)
  | config : Trouble (.configNotObject ((r.root env).child configFile).toText)
  | inputs {up : Location} {n : FileName} : CaseAt fs (r.root env) up n →
    Trouble (.inputsNotIntegers ((casePath (r.root env) n).child inputsFile).toText)
  | entry {name : Text} : r.Chooses env fs name →
    Trouble (.unknownEntry name (EntryPoint.known.map Prod.fst))
  | entryValue {shown : Text} : shown.Encodable → Trouble (.entryNotText shown)
  | entryNumeral : Trouble .numeralTooLong
  | case {name : Text} : r.case = some name → Trouble (.unknownCase name (r.root env).toText)
  | line {e : Utf8.EncodeError} : Trouble (.unencodable e)

end

theorem EntryPoint.ofName_eq_error {name : Text} {f : Fault}
    (h : EntryPoint.ofName name = .error f) : f = .unknownEntry name (known.map Prod.fst) := by
  unfold EntryPoint.ofName at h
  split at h
  · contradiction
  · cases h
    rfl

section
variable {env : Environment} {fs : FileSystem} {r : Request} {f : Fault}

theorem loadConfig_trouble (hentry : r.entry = none ∨ r.entry = some [])
    (h : loadConfig fs (r.root env) = .error f) : Trouble env fs r f := by
  rcases bind_eq_error_iff.1 h with hpresent | ⟨b, hpresent, h⟩
  · exact .file (.config hentry) (.of_present hpresent)
  · cases b with
    | false => cases h
    | true =>
      rcases bind_eq_error_iff.1 h with hread | ⟨v, hread, h⟩
      · exact .file (.config hentry) (.of_readJson hpresent hread)
      · cases v <;> cases h
        all_goals exact .config

/-- A value that is no name of an entry point is no text, or a text that is not known. -/
theorem ofValue_trouble {v : Json.Value} (hchooses : ∀ name, v = .string name → r.Chooses env fs name)
    (h : EntryPoint.ofValue v = .error f) : Trouble env fs r f := by
  unfold EntryPoint.ofValue at h
  split at h
  next t =>
    split at h
    next => contradiction
    next g hg =>
      cases h
      rw [EntryPoint.ofName_eq_error hg]
      exact .entry (hchooses t rfl)
  next =>
    split at h
    next shown hshown =>
      cases h
      exact .entryValue (Json.display?_encodable v hshown)
    next =>
      cases h
      exact .entryNumeral

theorem entryName_trouble (h : r.entryName env fs = .error f) : Trouble env fs r f := by
  have hgiven : r.entry = none ∨ r.entry = some [] →
      (loadConfig fs (r.root env) >>= fun config =>
        (EntryPoint.ofValue (entryValue env config)).map Prod.fst) = .error f →
      Trouble env fs r f := by
    intro hentry h
    rcases bind_eq_error_iff.1 h with hconfig | ⟨config, hconfig, h⟩
    · exact loadConfig_trouble hentry hconfig
    · refine ofValue_trouble (fun name hname => .inr ⟨hentry, config, ?_, hname⟩)
        (map_eq_error_iff.1 h)
      exact loadConfig_eq_ok_iff.1 hconfig
  unfold Request.entryName at h
  -- An empty name counts as none.
  match hentry : r.entry with
  | none =>
    rw [hentry] at h
    exact hgiven (.inl hentry) h
  | some [] =>
    rw [hentry] at h
    exact hgiven (.inr hentry) h
  | some (p :: t) =>
    simp only [hentry, chosen?] at h
    rw [EntryPoint.ofName_eq_error (map_eq_error_iff.1 h)]
    exact .entry (.inl ⟨hentry, List.cons_ne_nil p t⟩)

theorem selectCases_trouble
    (h : selectCases fs (r.root env) (r.root env).toText r.case = .error f) : Trouble env fs r f := by
  rcases bind_eq_error_iff.1 h with hfound | ⟨found, -, h⟩
  · obtain ⟨p, hmet, hlong, rfl⟩ := findCases_eq_error hfound
    exact .discovery hmet hlong
  · split at h
    next => contradiction
    next name hname =>
      split at h
      next =>
        cases h
        exact .case hname
      next => contradiction

/-! ## 6. Cases -/

section
variable {name : Text} {cases : List Path} {c : Path} (hname : r.entryName env fs = .ok name)
  (hcases : selectCases fs (r.root env) (r.root env).toText r.case = .ok cases) (hc : c ∈ cases)
include hcases hc

theorem present_inputs : fs.present (c.child inputsFile) = .ok true := by
  obtain ⟨found, hfound, hsub, -⟩ := selectCases_eq_ok hcases
  obtain ⟨b, -, hask⟩ := bind_eq_ok_iff.1 (isCase_of_mem_findCases hfound (hsub.subset hc))
  cases b with
  | false => cases hask
  | true => exact hask

theorem loadInputs_trouble (h : loadInputs fs c = .error f) : Trouble env fs r f := by
  have hpresent := present_inputs hcases hc
  obtain ⟨up, n, hcase, rfl, -⟩ := mem_selectCases hcases hc
  rcases bind_eq_error_iff.1 h with hread | ⟨v, -, h⟩
  · exact .file (.inputs hcase) (.of_readJson hpresent hread)
  · unfold inputsOf at h
    split at h
    next =>
      split at h
      next => contradiction
      next =>
        cases h
        exact .inputs hcase
    next =>
      cases h
      exact .inputs hcase

theorem loadExpected_trouble (h : loadExpected fs c = .error f) : Trouble env fs r f := by
  obtain ⟨up, n, hcase, rfl, -⟩ := mem_selectCases hcases hc
  refine .file (.expected hcase) ?_
  rcases bind_eq_error_iff.1 h with hpresent | ⟨b, hpresent, h⟩
  · exact .of_present hpresent
  · cases b with
    | false => cases h
    | true =>
      rcases bind_eq_error_iff.1 h with hread | ⟨t, -, h⟩
      · exact .of_readText hpresent hread
      · cases h

include hname

theorem output_trouble (h : output fs c name = .error f) : Trouble env fs r f := by
  obtain ⟨-, entry, hentry⟩ := entryName_eq_ok_iff.1 hname
  rw [output, hentry, ok_bind] at h
  rcases bind_eq_error_iff.1 h with hxs | ⟨xs, hxs, h⟩
  · exact loadInputs_trouble hcases hc hxs
  · -- Inputs that load can be rendered.
    rw [render_ints (loadInputs_short hxs)] at h
    contradiction

theorem runCase_trouble (h : runCase fs c name = .error f) : Trouble env fs r f := by
  rcases bind_eq_error_iff.1 h with hrendered | ⟨t, -, h⟩
  · exact output_trouble hname hcases hc hrendered
  · rcases bind_eq_error_iff.1 h with hexpected | ⟨expected, -, h⟩
    · exact loadExpected_trouble hcases hc hexpected
    · cases h

theorem rebuildCase_trouble (h : rebuildCase fs c name = .error f) : Trouble env fs r f := by
  rcases bind_eq_error_iff.1 h with hrendered | ⟨t, -, h⟩
  · exact output_trouble hname hcases hc hrendered
  · split at h
    next =>
      cases h
      exact .line
    next content hencoded =>
      split at h
      next s hs =>
        cases h
        obtain ⟨up, n, hcase, rfl, hat, -⟩ := mem_selectCases hcases hc
        exact .file (.expected hcase) (.of_writeFile hat hcase.folder hs)
      next => contradiction

end
end

end Golden
end GoldenCheck
