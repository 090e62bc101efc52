import GoldenCheck.Proofs.Golden.AllOrNothing
import GoldenCheck.Proofs.Golden.Inputs
import GoldenCheck.Proofs.Storage.Respelling

/-!
# Which expected files pass

The expected file of a case passes exactly if its bytes are the lines of the output in ASCII, each
ended by LF, CR LF or CR, whichever it may be.  Reading unifies the endings, and since no line is
empty or holds one of their characters, nothing else is read as the output.
-/

namespace GoldenCheck

/-! ## 1. Lines and their endings -/

/-- The text of some lines, each ended in a way of its own. -/
inductive Terminated {α : Type} (ending : LineEnding → List α) : List (List α) → List α → Prop
  | none : Terminated ending [] []
  | line {t : List α} {ts : List (List α)} {rest : List α} (e : LineEnding) :
    Terminated ending ts rest → Terminated ending (t :: ts) (t ++ ending e ++ rest)

section
variable {α : Type} {ending : LineEnding → List α} {t : List α} {ts : List (List α)} {s : List α}

theorem terminated_nil_iff : Terminated ending [] s ↔ s = [] := by
  constructor
  · rintro ⟨⟩
    rfl
  · rintro rfl
    exact .none

theorem terminated_cons_iff :
    Terminated ending (t :: ts) s ↔ ∃ e rest, s = t ++ ending e ++ rest ∧ Terminated ending ts rest := by
  constructor
  · rintro ⟨⟩
    rename_i rest e hrest
    exact ⟨e, rest, rfl, hrest⟩
  · rintro ⟨e, rest, rfl, hrest⟩
    exact .line e hrest

/-- Lines can be ended before or after each of their elements is translated. -/
theorem terminated_map_iff {β : Type} {g : α → β} {ends : LineEnding → List β}
    (hends : ∀ e, ends e = (ending e).map g) {b : List β} :
    Terminated ends (ts.map (List.map g)) b ↔ ∃ s, Terminated ending ts s ∧ b = s.map g := by
  induction ts generalizing b with
  | nil => simp [terminated_nil_iff]
  | cons t ts ih =>
    simp only [List.map_cons, terminated_cons_iff, ih, hends]
    constructor
    · rintro ⟨e, _, rfl, s, hs, rfl⟩
      exact ⟨_, ⟨e, s, rfl, hs⟩, by simp⟩
    · rintro ⟨_, ⟨e, s, rfl, hs⟩, rfl⟩
      exact ⟨e, _, by simp, s, hs, rfl⟩

end

/-- What is read as a line feed is one of the endings, if no line feed follows. -/
theorem unifyLineEndings_eq_feed_iff {cs rest : List Char} (hrest : rest.head? ≠ some '\n') :
    unifyLineEndings cs = '\n' :: rest ↔
      ∃ (e : LineEnding) (s : List Char), cs = e.chars ++ s ∧ unifyLineEndings s = rest := by
  constructor
  · intro h
    fun_cases unifyLineEndings cs with
    | case1 => contradiction
    | case2 s => exact ⟨.crlf, s, rfl, (List.cons.inj h).2⟩
    | case3 c s hpair =>
      rw [unifyLineEndings_first] at h
      · obtain ⟨hc, hs⟩ := List.cons.inj h
        by_cases hreturn : c = '\r'
        · exact ⟨.cr, s, by rw [hreturn]; rfl, hs⟩
        · rw [if_neg hreturn] at hc
          exact ⟨.lf, s, by rw [hc]; rfl, hs⟩
      · rintro rfl hhead
        cases s with
        | nil => contradiction
        | cons d s => exact hpair s rfl (by rw [Option.some.inj hhead])
  · rintro ⟨e, s, rfl, rfl⟩
    cases e with
    | lf => exact unifyLineEndings_cons (by decide) s
    | crlf => rfl
    | cr =>
      refine unifyLineEndings_first fun _ hhead => hrest ?_
      -- A line feed after the CR would have stayed one.
      cases s with
      | nil => contradiction
      | cons d s =>
        rw [Option.some.inj hhead, unifyLineEndings_cons (by decide)]
        rfl

theorem lines_head?_ne {ts : List (List Char)} (h : ∀ t ∈ ts, Solid t) :
    (ts.flatMap (· ++ ['\n'])).head? ≠ some '\n' := by
  cases ts with
  | nil => simp
  | cons t ts =>
    have ht := h t List.mem_cons_self
    obtain ⟨c, t, rfl⟩ := List.exists_cons_of_ne_nil ht.ne_nil
    intro hhead
    obtain rfl : c = '\n' := Option.some.inj hhead
    exact ht.noFeed List.mem_cons_self

/-- A text is read as some lines if it is these lines with any endings. -/
theorem unifyLineEndings_eq_lines_iff {ts : List (List Char)} (h : ∀ t ∈ ts, Solid t) {cs : List Char} :
    unifyLineEndings cs = ts.flatMap (· ++ ['\n']) ↔ Terminated LineEnding.chars ts cs := by
  -- Line by line: the line itself is read as it is, and the feed after it is any ending.
  induction ts generalizing cs with
  | nil => rw [List.flatMap_nil, unifyLineEndings_eq_nil_iff, terminated_nil_iff]
  | cons t ts ih =>
    have ht := h t List.mem_cons_self
    have hts : ∀ s ∈ ts, Solid s := fun s hs => h s (List.mem_cons_of_mem t hs)
    rw [List.flatMap_cons, List.append_assoc, List.singleton_append,
      unifyLineEndings_solid ht.noFeed ht.noReturn, terminated_cons_iff]
    simp only [unifyLineEndings_eq_feed_iff (lines_head?_ne hts), ih hts]
    constructor
    · rintro ⟨_, rfl, e, s, rfl, hs⟩
      exact ⟨e, s, by rw [List.append_assoc], hs⟩
    · rintro ⟨e, s, rfl, hs⟩
      exact ⟨_, by rw [List.append_assoc], e, s, rfl, hs⟩

theorem Terminated.ascii {ts : List (List Char)} {s : List Char}
    (h : Terminated LineEnding.chars ts s) (hts : ∀ t ∈ ts, Json.Ascii t) : Json.Ascii s := by
  induction h with
  | none => exact nofun
  | line e _ ih =>
    obtain ⟨ht, hts⟩ := List.forall_mem_cons.1 hts
    have he : Json.Ascii e.chars := by
      unfold Json.Ascii
      cases e <;> simp [LineEnding.chars]
    exact (ht.append he).append (ih hts)

/-- A file is read as some ASCII lines if its bytes are those of the lines with any endings. -/
theorem decode_eq_lines_iff {ts : List (List Char)} (hsolid : ∀ t ∈ ts, Solid t)
    (hascii : ∀ t ∈ ts, Json.Ascii t) {content : Bytes} :
    (∃ cs, Utf8.decode content = .ok cs ∧ unifyLineEndings cs = ts.flatMap (· ++ ['\n'])) ↔
      Terminated LineEnding.bytes (ts.map (List.map Char.toUInt8)) content := by
  have hbytes : ∀ e : LineEnding, e.bytes = e.chars.map Char.toUInt8 := by
    intro e
    cases e <;> rfl
  simp only [Utf8.decode_eq_ok_iff, unifyLineEndings_eq_lines_iff hsolid, terminated_map_iff hbytes]
  constructor
  · rintro ⟨cs, rfl, hcs⟩
    exact ⟨cs, hcs, (hcs.ascii hascii).encodeChars⟩
  · rintro ⟨cs, hcs, rfl⟩
    exact ⟨cs, (hcs.ascii hascii).encodeChars.symm, hcs⟩

/-! ## 2. The lines of an output -/

/-- ASCII from the space on, so that each character has one byte and none ends a line. -/
def Text.AsciiFromSpace (t : Text) : Prop := ∀ p ∈ t, 0x20 ≤ p.toNat ∧ p.toNat < 0x80

instance (t : Text) : Decidable t.AsciiFromSpace :=
  inferInstanceAs (Decidable (∀ p ∈ t, 0x20 ≤ p.toNat ∧ p.toNat < 0x80))

/-- The bytes of a text in ASCII. -/
def Text.ascii (t : Text) : Bytes := t.map fun p => UInt8.ofNat p.toNat

theorem Text.AsciiFromSpace.append {s t : Text} (hs : s.AsciiFromSpace) (ht : t.AsciiFromSpace) :
    Text.AsciiFromSpace (s ++ t) :=
  fun p hp => (List.mem_append.1 hp).elim (hs p) (ht p)

theorem Text.AsciiFromSpace.exists_chars {t : Text} (h : t.AsciiFromSpace) :
    ∃ s, t = Text.ofChars s ∧ Json.Ascii s ∧ '\n' ∉ s ∧ '\r' ∉ s := by
  have hencodable : t.Encodable := by
    intro p hp
    cases p with
    | char c => rfl
    | surrogate k =>
      have hlt : 0xD800 + k.val < 0x80 := (h _ hp).2
      omega
  obtain ⟨s, rfl⟩ := hencodable.exists_chars
  have hchar : ∀ c ∈ s, 0x20 ≤ c.toNat ∧ c.toNat < 0x80 :=
    fun c hc => h (.char c) (List.mem_map_of_mem hc)
  exact ⟨s, rfl, fun c hc => (hchar c hc).2, fun hm => absurd (hchar _ hm) (by decide),
    fun hm => absurd (hchar _ hm) (by decide)⟩

theorem Text.ascii_ofChars (s : List Char) : (Text.ofChars s).ascii = s.map Char.toUInt8 := by
  rw [Text.ascii, Text.ofChars, List.map_map]
  rfl

namespace Golden

/-- The line of an input without its end. -/
def lineText (label : Text) (entry : EntryPoint) (a : Int) : Text :=
  label ++ "(" ++ Text.ofChars (Numeral.ofInt a) ++ ") = " ++
    Text.ofChars (Numeral.ofInt (entry.apply a))

theorem EntryPoint.known_asciiFromSpace : ∀ e ∈ EntryPoint.known, e.1.AsciiFromSpace := by decide

theorem numeral_asciiFromSpace (a : Int) : (Text.ofChars (Numeral.ofInt a)).AsciiFromSpace := by
  intro p hp
  obtain ⟨c, hc, rfl⟩ := List.mem_map.1 hp
  show 0x20 ≤ c.toNat ∧ c.toNat < 0x80
  rcases Numeral.mem_ofInt hc with rfl | hdigit
  · decide
  · simp only [Char.isDigit, Bool.and_eq_true, decide_eq_true_eq] at hdigit
    have hlo : 48 ≤ c.toNat := hdigit.1
    have hhi : c.toNat ≤ 57 := hdigit.2
    omega

theorem lineText_asciiFromSpace {label : Text} (h : label.AsciiFromSpace) (entry : EntryPoint)
    (a : Int) : (lineText label entry a).AsciiFromSpace :=
  (((h.append (by decide)).append (numeral_asciiFromSpace a)).append (by decide)).append
    (numeral_asciiFromSpace _)

theorem lineText_ne_nil (label : Text) (entry : EntryPoint) (a : Int) :
    lineText label entry a ≠ [] := by
  have hopen : Text.ofString "(" = [.char '('] := rfl
  simp [lineText, hopen]

/-- An output is made of ASCII lines, none of them empty. -/
theorem rendering_lines {label : Text} (h : label.AsciiFromSpace) (entry : EntryPoint)
    (xs : List Int) :
    ∃ ts : List (List Char), (∀ t ∈ ts, Solid t) ∧ (∀ t ∈ ts, Json.Ascii t) ∧
      rendering label entry xs = Text.ofChars (ts.flatMap (· ++ ['\n'])) ∧
      (xs.map fun a => (lineText label entry a).ascii) = ts.map (List.map Char.toUInt8) := by
  induction xs with
  | nil => exact ⟨[], nofun, nofun, rfl, rfl⟩
  | cons a xs ih =>
    obtain ⟨ts, hsolid, hascii, hrest, hbytes⟩ := ih
    obtain ⟨s, hs, ha, hfeed, hreturn⟩ := (lineText_asciiFromSpace h entry a).exists_chars
    have hne : s ≠ [] := by
      rintro rfl
      exact lineText_ne_nil label entry a hs
    have hline : lineOf label entry a = Text.ofChars (s ++ ['\n']) := by
      show lineText label entry a ++ Text.ofString "\n" = _
      rw [hs]
      exact List.map_append.symm
    refine ⟨s :: ts, List.forall_mem_cons.2 ⟨⟨hne, hfeed, hreturn⟩, hsolid⟩,
      List.forall_mem_cons.2 ⟨ha, hascii⟩, ?_, ?_⟩
    · show lineOf label entry a ++ rendering label entry xs = _
      rw [hline, hrest, List.flatMap_cons]
      exact List.map_append.symm
    · rw [List.map_cons, List.map_cons, hs, Text.ascii_ofChars, hbytes]

/-! ## 3. The verdict on a file -/

section
variable {fs : FileSystem} {case : Path} {name : Text} {entry : EntryPoint} {xs : List Int}

theorem runCase_of_decode (hname : EntryPoint.ofName name = .ok entry)
    (hxs : loadInputs fs case = .ok xs) {content : Bytes}
    (hfile : fs.readFile (case.child expectedFile) = .ok content) {cs : List Char}
    (hcs : Utf8.decode content = .ok cs) :
    runCase fs case name =
      .ok ⟨case.name, some (Text.ofChars (unifyLineEndings cs)) = some (rendering name entry xs),
        rendering name entry xs, some (Text.ofChars (unifyLineEndings cs))⟩ := by
  have hload : loadExpected fs case = .ok (some (Text.ofChars (unifyLineEndings cs))) :=
    loadExpected_eq_some_iff.2
      ⟨_, FileSystem.readText_eq_ok_iff.2 ⟨content, cs, hfile, hcs, rfl⟩, rfl⟩
  exact runCase_eq_ok_iff.2 ⟨_, _, output_eq_ok_iff.2 ⟨entry, xs, hname, hxs, rfl⟩, hload, rfl⟩

theorem passed_iff_terminated (hname : EntryPoint.ofName name = .ok entry)
    (hxs : loadInputs fs case = .ok xs) {content : Bytes}
    (hfile : fs.readFile (case.child expectedFile) = .ok content) :
    (∃ r, runCase fs case name = .ok r ∧ r.passed = true) ↔
      Terminated LineEnding.bytes (xs.map fun a => (lineText name entry a).ascii) content := by
  have hlabel := EntryPoint.known_asciiFromSpace _ (EntryPoint.ofName_eq_ok_iff.1 hname)
  obtain ⟨ts, hsolid, hascii, hlines, hbytes⟩ := rendering_lines hlabel entry xs
  rw [hbytes, ← decode_eq_lines_iff hsolid hascii]
  constructor
  · rintro ⟨r, hr, hpassed⟩
    obtain ⟨t, expected, -, hexpected, rfl⟩ := runCase_eq_ok_iff.1 hr
    obtain rfl := of_decide_eq_true hpassed
    obtain ⟨_, hread, rfl⟩ := loadExpected_eq_some_iff.1 hexpected
    obtain ⟨content', cs, hfile', hcs, rfl⟩ := FileSystem.readText_eq_ok_iff.1 hread
    obtain rfl : content = content' := Except.ok.inj (hfile.symm.trans hfile')
    refine ⟨cs, hcs, Text.ofChars_injective ?_⟩
    have hactual := congrArg CaseResult.actual
      (Except.ok.inj (hr.symm.trans (runCase_of_decode hname hxs hfile hcs)))
    exact hactual.trans hlines
  · rintro ⟨cs, hcs, hread⟩
    refine ⟨_, runCase_of_decode hname hxs hfile hcs, ?_⟩
    simp only [hread, hlines, decide_true]

/-- An expected file passes exactly if it holds the lines of the output in ASCII, each ended by LF,
CR LF or CR.  Any other file that can be decoded fails, and so does a case without the file. -/
theorem expected_file_passes_iff (hname : EntryPoint.ofName name = .ok entry)
    (hxs : loadInputs fs case = .ok xs) :
    (∀ content, fs.readFile (case.child expectedFile) = .ok content →
      ((∃ r, runCase fs case name = .ok r ∧ r.passed = true) ↔
        Terminated LineEnding.bytes (xs.map fun a => (lineText name entry a).ascii) content) ∧
      ∀ cs, content = Utf8.encodeChars cs →
        ¬ Terminated LineEnding.bytes (xs.map fun a => (lineText name entry a).ascii) content →
        runCase fs case name = .ok ⟨case.name, false, rendering name entry xs,
          some (Text.ofChars (unifyLineEndings cs))⟩) ∧
    (fs.exists? (case.child expectedFile) ≠ .ok true →
      runCase fs case name = .ok ⟨case.name, false, rendering name entry xs, none⟩) := by
  refine ⟨fun content hfile => ⟨passed_iff_terminated hname hxs hfile, ?_⟩, fun habsent => ?_⟩
  · intro cs hcs hother
    rw [← passed_iff_terminated hname hxs hfile] at hother
    have hrun := runCase_of_decode hname hxs hfile (Utf8.decode_eq_ok_iff.2 hcs)
    have hne : some (Text.ofChars (unifyLineEndings cs)) ≠ some (rendering name entry xs) :=
      fun heq => hother ⟨_, hrun, decide_eq_true heq⟩
    rw [hrun, decide_eq_false hne]
  · -- The inputs have been found, so that only its absence keeps the file beside them from it.
    obtain ⟨up, hat, -⟩ := expected_beside_inputs hxs
    have hholds := FileSystem.holds_of_locate hat fun _ => true
    have hpresent : fs.present (case.child expectedFile) = .ok false := by
      rw [FileSystem.exists?, hholds, ne_eq, Except.ok.injEq, Bool.not_eq_true] at habsent
      rw [FileSystem.present, FileSystem.exists?, hholds, habsent]
      rfl
    exact runCase_eq_ok_iff.2 ⟨_, _, output_eq_ok_iff.2 ⟨entry, xs, hname, hxs, rfl⟩,
      loadExpected_eq_none_iff.2 hpresent, rfl⟩

end

/-- The case `a` ends each of its expected lines in another way, `b` does not end its last line, and
`c` has no expected file. -/
def mixedEndings : FileSystem where
  entries :=
    [([Utf8.encodeSystem "golden"], .directory),
      ([Utf8.encodeSystem "a", Utf8.encodeSystem "golden"], .directory),
      ([inputsName, Utf8.encodeSystem "a", Utf8.encodeSystem "golden"],
        .file (Utf8.encodeSystem "[2, 4, -1]")),
      ([expectedName, Utf8.encodeSystem "a", Utf8.encodeSystem "golden"],
        .file (Utf8.encodeSystem "main(2) = 1\r\nmain(4) = 0\rmain(-1) = -1\n")),
      ([Utf8.encodeSystem "b", Utf8.encodeSystem "golden"], .directory),
      ([inputsName, Utf8.encodeSystem "b", Utf8.encodeSystem "golden"],
        .file (Utf8.encodeSystem "[2]")),
      ([expectedName, Utf8.encodeSystem "b", Utf8.encodeSystem "golden"],
        .file (Utf8.encodeSystem "main(2) = 1")),
      ([Utf8.encodeSystem "c", Utf8.encodeSystem "golden"], .directory),
      ([inputsName, Utf8.encodeSystem "c", Utf8.encodeSystem "golden"],
        .file (Utf8.encodeSystem "[7]"))]
  workingDirectory := []
  distinct := by decide
  valid := by decide

theorem mixedEndings_passes_iff :
    loadInputs mixedEndings (Path.ofText "golden/a") = .ok [2, 4, -1] ∧
      (∃ r, runCase mixedEndings (Path.ofText "golden/a") "main" = .ok r ∧ r.passed = true) ∧
      runCase mixedEndings (Path.ofText "golden/b") "main" =
        .ok ⟨"b", false, "main(2) = 1\n", some "main(2) = 1"⟩ ∧
      runCase mixedEndings (Path.ofText "golden/c") "main" =
        .ok ⟨"c", false, "main(7) = 1\n", none⟩ := by
  have hmain : EntryPoint.ofName "main" = .ok .smallPrime := by decide
  have ha : loadInputs mixedEndings (Path.ofText "golden/a") = .ok [2, 4, -1] := by decide +kernel
  have hb : loadInputs mixedEndings (Path.ofText "golden/b") = .ok [2] := by decide +kernel
  have hc : loadInputs mixedEndings (Path.ofText "golden/c") = .ok [7] := by decide +kernel
  refine ⟨ha, ?_, ?_, ?_⟩
  · obtain ⟨hpasses, -⟩ := (expected_file_passes_iff hmain ha).1
      (Utf8.encodeSystem "main(2) = 1\r\nmain(4) = 0\rmain(-1) = -1\n") (by decide +kernel)
    exact hpasses.2 (.line .crlf (.line .cr (.line .lf .none)))
  · obtain ⟨-, hother⟩ := (expected_file_passes_iff hmain hb).1
      (Utf8.encodeSystem "main(2) = 1") (by decide +kernel)
    refine hother "main(2) = 1".toList (by decide +kernel) fun hlines => ?_
    obtain ⟨e, rest, hline, hrest⟩ := terminated_cons_iff.1 hlines
    obtain rfl := terminated_nil_iff.1 hrest
    cases e <;> exact absurd hline (by decide +kernel)
  · exact (expected_file_passes_iff hmain hc).2 (by decide +kernel)

end Golden
end GoldenCheck
