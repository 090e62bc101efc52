import GoldenCheck.Proofs.Json.Escaping
import GoldenCheck.Proofs.Json.Insertion
import GoldenCheck.Proofs.Json.IntegerList

/-!
# Written values are read back

A value without floats is read back from its text, with any text behind it in which a number cannot
go on.  Only objects may change: a name that came more than once is kept once, so that the value
read is the one in which the pairs of every object have been inserted in order.
-/

namespace GoldenCheck
namespace Json

/-! ## 1. The value that is read -/

mutual

/-- The value in which the pairs of each object have been inserted in order. -/
def Value.settled : Value → Value
  | .null => .null
  | .bool b => .bool b
  | .int n => .int n
  | .float x => .float x
  | .string t => .string t
  | .array vs => .array (settledItems vs)
  | .object fs => .object (Fields.ofPairs (settledFields fs))

def settledItems : List Value → List Value
  | [] => []
  | v :: vs => v.settled :: settledItems vs

def settledFields : List (Text × Value) → List (Text × Value)
  | [] => []
  | (name, v) :: fs => (name, v.settled) :: settledFields fs

end

theorem settledItems_eq_map (vs : List Value) : settledItems vs = vs.map Value.settled := by
  induction vs with
  | nil => rw [settledItems, List.map_nil]
  | cons v vs ih => rw [settledItems, ih, List.map_cons]

theorem settledFields_eq_map (fs : List (Text × Value)) :
    settledFields fs = fs.map fun f => (f.1, f.2.settled) := by
  induction fs with
  | nil => rw [settledFields, List.map_nil]
  | cons f fs ih => rw [settledFields, ih, List.map_cons]

/-- The fields of an object that is read have each name once, with its last value. -/
theorem settled_object (fs : List (Text × Value)) :
    ∃ gs, (Value.object fs).settled = .object gs ∧
      Fields.LastWins (fs.map fun f => (f.1, f.2.settled)) gs := by
  rw [Value.settled, settledFields_eq_map]
  exact ⟨_, rfl, Fields.lastWins_ofPairs _⟩

theorem settled_ne_object {v : Value} (h : ∀ fs, v ≠ .object fs) (gs : Fields) :
    v.settled ≠ .object gs := by
  cases v with
  | object fs => exact absurd rfl (h fs)
  | null | bool | int | float | string | array => simp [Value.settled]

/-- In every object inside the value the names differ. -/
inductive Distinct : Value → Prop
  | null : Distinct .null
  | bool (b : Bool) : Distinct (.bool b)
  | int (n : Int) : Distinct (.int n)
  | float (x : Binary64) : Distinct (.float x)
  | string (t : Text) : Distinct (.string t)
  | array {vs : List Value} : (∀ v ∈ vs, Distinct v) → Distinct (.array vs)
  | object {fs : List (Text × Value)} : (fs.map Prod.fst).Nodup → (∀ f ∈ fs, Distinct f.2) →
    Distinct (.object fs)

theorem Distinct.settled_eq {v : Value} (h : Distinct v) : v.settled = v := by
  induction h with
  | null => rw [Value.settled]
  | bool b => rw [Value.settled]
  | int n => rw [Value.settled]
  | float x => rw [Value.settled]
  | string t => rw [Value.settled]
  | @array vs _ ih =>
    have hitems : vs.map Value.settled = vs.map id := List.map_congr_left ih
    rw [Value.settled, settledItems_eq_map, hitems, List.map_id]
  | @object fs hnames _ ih =>
    have hfields : fs.map (fun f => (f.1, f.2.settled)) = fs.map id :=
      List.map_congr_left fun f hf => Prod.ext rfl (ih f hf)
    rw [Value.settled, settledFields_eq_map, hfields, List.map_id, Fields.ofPairs_of_nodup hnames]

/-! ## 2. Values that are written -/

/-- Values without floats, with short integers and strings whose halves are lone, in which at most
`depth` arrays and objects are around one another. -/
inductive Writable : (depth : Nat) → Value → Prop
  | null {depth : Nat} : Writable depth .null
  | bool {depth : Nat} (b : Bool) : Writable depth (.bool b)
  | int {depth : Nat} {n : Int} : Numeral.Short n → Writable depth (.int n)
  | string {depth : Nat} {t : Text} : t.Unpaired → Writable depth (.string t)
  | array {depth : Nat} {vs : List Value} : (∀ v ∈ vs, Writable depth v) →
    Writable (depth + 1) (.array vs)
  | object {depth : Nat} {fs : List (Text × Value)} : (∀ f ∈ fs, f.1.Unpaired) →
    (∀ f ∈ fs, Writable depth f.2) → Writable (depth + 1) (.object fs)

/-- A text that starts neither with a space nor with the end of an array or an object. -/
def Starts (s : List Char) : Prop := ∃ c t, s = c :: t ∧ isSpace c = false ∧ c ≠ ']' ∧ c ≠ '}'

theorem Starts.append {s : List Char} (h : Starts s) (r : List Char) : Starts (s ++ r) := by
  obtain ⟨c, t, rfl, hspace, hclose⟩ := h
  exact ⟨c, t ++ r, rfl, hspace, hclose⟩

theorem Starts.skipSpace_eq {s : List Char} (h : Starts s) : skipSpace s = s := by
  obtain ⟨c, t, rfl, hspace, -⟩ := h
  exact skipSpace_cons hspace t

theorem skipSpace_space {s : List Char} (h : Starts s) : skipSpace (' ' :: s) = s := by
  have hblank : Blank [' '] := by
    intro c hc
    exact .inl (List.mem_singleton.1 hc)
  have hskip := skipSpace_append hblank s
  rwa [h.skipSpace_eq] at hskip

theorem starts_stringText (t : Text) : Starts (stringText t) :=
  ⟨'"', t.flatMap pointText ++ ['"'], rfl, by decide, by decide, by decide⟩

theorem Writable.starts {depth : Nat} {v : Value} (h : Writable depth v) : Starts v.toJson := by
  cases h with
  | null => exact ⟨'n', _, rfl, by decide, by decide, by decide⟩
  | bool b =>
    cases b with
    | true => exact ⟨'t', _, rfl, by decide, by decide, by decide⟩
    | false => exact ⟨'f', _, rfl, by decide, by decide, by decide⟩
  | @int _ n hn =>
    rw [Value.toJson]
    obtain ⟨c, t, hnumeral, hc⟩ := (integerText_ofInt hn).head
    refine ⟨c, t, hnumeral, ?_, ?_, ?_⟩
    · by_contra hspace
      rw [Bool.not_eq_false, isSpace_iff] at hspace
      rcases hspace with rfl | rfl | rfl | rfl <;> exact absurd hc (by decide)
    · rintro rfl
      exact absurd hc (by decide)
    · rintro rfl
      exact absurd hc (by decide)
  | string _ =>
    rw [Value.toJson]
    exact starts_stringText _
  | array _ =>
    rw [Value.toJson]
    exact ⟨'[', _, rfl, by decide, by decide, by decide⟩
  | object _ _ =>
    rw [Value.toJson]
    exact ⟨'{', _, rfl, by decide, by decide, by decide⟩

/-! ## 3. Texts with commas between them -/

def separated : List (List Char) → List Char
  | [] => []
  | [s] => s
  | s :: t :: ss => s ++ ',' :: ' ' :: separated (t :: ss)

theorem starts_separated {s : List Char} (h : Starts s) (ss : List (List Char)) :
    Starts (separated (s :: ss)) := by
  cases ss with
  | nil => exact h
  | cons t ss => exact h.append _

theorem length_le_separated (ss : List (List Char)) : ss.length ≤ (separated ss).length + 1 := by
  induction ss with
  | nil => simp
  | cons s ss ih =>
    cases ss with
    | nil => simp
    | cons t ss =>
      simp only [separated, List.length_append, List.length_cons] at ih ⊢
      omega

theorem length_part_le {s : List Char} {ss : List (List Char)} (h : s ∈ ss) :
    s.length ≤ (separated ss).length := by
  induction ss with
  | nil => contradiction
  | cons t ss ih =>
    cases ss with
    | nil => rw [List.mem_singleton.1 h, separated]
    | cons u ss =>
      simp only [separated, List.length_append, List.length_cons]
      rcases List.mem_cons.1 h with rfl | hmem
      · omega
      · have := ih hmem
        omega

theorem spaceToTilde_separated {ss : List (List Char)} (h : ∀ s ∈ ss, SpaceToTilde s) :
    SpaceToTilde (separated ss) := by
  induction ss with
  | nil => exact spaceToTilde_nil
  | cons s ss ih =>
    have hs := h s List.mem_cons_self
    have hrest := ih fun t ht => h t (List.mem_cons_of_mem _ ht)
    cases ss with
    | nil => exact hs
    | cons t ss => exact hs.append ((hrest.cons (by decide)).cons (by decide))

theorem itemsText_eq (vs : List Value) : itemsText vs = separated (vs.map Value.toJson) := by
  induction vs with
  | nil => rw [itemsText, List.map_nil, separated]
  | cons v vs ih =>
    rw [itemsText, ih]
    cases vs with
    | nil => exact List.append_nil _
    | cons w vs => rfl

/-- The text of a name, a colon and a value. -/
def fieldText (f : Text × Value) : List Char := stringText f.1 ++ ':' :: ' ' :: f.2.toJson

theorem starts_fieldText (f : Text × Value) : Starts (fieldText f) :=
  (starts_stringText f.1).append _

theorem fieldsText_eq (fs : List (Text × Value)) : fieldsText fs = separated (fs.map fieldText) := by
  induction fs with
  | nil => rw [fieldsText, List.map_nil, separated]
  | cons f fs ih =>
    rw [fieldsText, ih]
    cases fs with
    | nil => exact List.append_nil _
    | cons g fs => rfl

/-! ## 4. Items and fields -/

/-- A reader that reads written values back. -/
def ReadsBack (read : List Char → Read Value) (v : Value) : Prop :=
  ∀ r, Stops r → read (v.toJson ++ r) = .ok (v.settled, r)

theorem stops_brace (r : List Char) : Stops ('}' :: r) := by
  intro c hc
  obtain rfl := Option.some.inj hc
  decide

section Containers

variable {read : List Char → Read Value} {width : Nat}

theorem items_written {vs : List Value} (hne : vs ≠ []) (hwidth : vs.length ≤ width)
    (hread : ∀ v ∈ vs, ReadsBack read v) (hstarts : ∀ v ∈ vs, Starts v.toJson) (r : List Char) :
    items read width (separated (vs.map Value.toJson) ++ ']' :: r) = .ok (settledItems vs, r) := by
  -- Each item uses up one of the width.
  induction vs generalizing width with
  | nil => contradiction
  | cons v vs ih =>
    obtain ⟨width, rfl⟩ : ∃ k, width = k + 1 := ⟨width - 1, by simp at hwidth; omega⟩
    have hv := hread v List.mem_cons_self
    cases vs with
    | nil =>
      simp only [List.map_cons, List.map_nil, separated, items, hv _ (stops_bracket r),
        skipSpace_cons (show isSpace ']' = false by decide), settledItems]
    | cons w vs =>
      have hrest := ih (List.cons_ne_nil w vs) (by simp at hwidth ⊢; omega)
        (fun u hu => hread u (List.mem_cons_of_mem _ hu))
        (fun u hu => hstarts u (List.mem_cons_of_mem _ hu))
      have hnext := (starts_separated (hstarts w (List.mem_cons_of_mem _ List.mem_cons_self))
        (vs.map Value.toJson)).append (']' :: r)
      rw [List.map_cons] at hrest
      simp only [List.map_cons, separated, List.append_assoc, List.cons_append, items,
        hv _ (stops_comma _), skipSpace_cons (show isSpace ',' = false by decide),
        skipSpace_space hnext, hrest, settledItems]

theorem array_written {vs : List Value} (hwidth : vs.length ≤ width)
    (hread : ∀ v ∈ vs, ReadsBack read v) (hstarts : ∀ v ∈ vs, Starts v.toJson) (r : List Char) :
    array read width (itemsText vs ++ ']' :: r) = .ok ((Value.array vs).settled, r) := by
  rw [itemsText_eq, Value.settled]
  cases vs with
  | nil =>
    rw [settledItems]
    exact array_of_blank (List.forall_mem_nil _) read width r
  | cons v vs =>
    have hitems := items_written (List.cons_ne_nil v vs) hwidth hread hstarts r
    have hfirst := (starts_separated (hstarts v List.mem_cons_self) (vs.map Value.toJson)).append
      (']' :: r)
    rw [List.map_cons] at hitems ⊢
    unfold array
    rw [hfirst.skipSpace_eq]
    split
    next s hclose =>
      -- The first character is that of an item.
      obtain ⟨c, t, hc, -, hne, -⟩ := hfirst
      rw [hc] at hclose
      exact absurd (List.cons.inj hclose).1 hne
    next => rw [hitems]

theorem field_written {f : Text × Value} (hname : f.1.Unpaired) (hread : ReadsBack read f.2)
    (hstarts : Starts f.2.toJson) {r : List Char} (hr : Stops r) :
    field read (fieldText f ++ r) = .ok ((f.1, f.2.settled), r) := by
  have htext : fieldText f ++ r =
      '"' :: (f.1.flatMap pointText ++ '"' :: ':' :: ' ' :: (f.2.toJson ++ r)) := by
    simp [fieldText, stringText]
  rw [htext, field]
  simp only [string_written hname, skipSpace_cons (show isSpace ':' = false by decide),
    skipSpace_space (hstarts.append r), hread r hr]

theorem members_written {fs : List (Text × Value)} (hne : fs ≠ []) (hwidth : fs.length ≤ width)
    (hnames : ∀ f ∈ fs, f.1.Unpaired) (hread : ∀ f ∈ fs, ReadsBack read f.2)
    (hstarts : ∀ f ∈ fs, Starts f.2.toJson) (r : List Char) :
    members read width (separated (fs.map fieldText) ++ '}' :: r) = .ok (settledFields fs, r) := by
  induction fs generalizing width with
  | nil => contradiction
  | cons f fs ih =>
    obtain ⟨width, rfl⟩ : ∃ k, width = k + 1 := ⟨width - 1, by simp at hwidth; omega⟩
    have hf : ∀ u, Stops u → field read (fieldText f ++ u) = .ok ((f.1, f.2.settled), u) := fun u hu =>
      field_written (hnames f List.mem_cons_self) (hread f List.mem_cons_self)
        (hstarts f List.mem_cons_self) hu
    cases fs with
    | nil =>
      simp only [List.map_cons, List.map_nil, separated, members, hf _ (stops_brace r),
        skipSpace_cons (show isSpace '}' = false by decide), settledFields]
    | cons g fs =>
      have hrest := ih (List.cons_ne_nil g fs) (by simp at hwidth ⊢; omega)
        (fun u hu => hnames u (List.mem_cons_of_mem _ hu))
        (fun u hu => hread u (List.mem_cons_of_mem _ hu))
        (fun u hu => hstarts u (List.mem_cons_of_mem _ hu))
      have hnext := (starts_separated (starts_fieldText g) (fs.map fieldText)).append ('}' :: r)
      rw [List.map_cons] at hrest
      simp only [List.map_cons, separated, List.append_assoc, List.cons_append, members,
        hf _ (stops_comma _), skipSpace_cons (show isSpace ',' = false by decide),
        skipSpace_space hnext, hrest, settledFields]

theorem object_written {fs : List (Text × Value)} (hwidth : fs.length ≤ width)
    (hnames : ∀ f ∈ fs, f.1.Unpaired) (hread : ∀ f ∈ fs, ReadsBack read f.2)
    (hstarts : ∀ f ∈ fs, Starts f.2.toJson) (r : List Char) :
    object read width (fieldsText fs ++ '}' :: r) = .ok ((Value.object fs).settled, r) := by
  rw [fieldsText_eq, Value.settled]
  cases fs with
  | nil => rfl
  | cons f fs =>
    have hmembers := members_written (List.cons_ne_nil f fs) hwidth hnames hread hstarts r
    have hfirst := (starts_separated (starts_fieldText f) (fs.map fieldText)).append ('}' :: r)
    rw [List.map_cons] at hmembers ⊢
    unfold object
    rw [hfirst.skipSpace_eq]
    split
    next s hclose =>
      obtain ⟨c, t, hc, -, -, hne⟩ := hfirst
      rw [hc] at hclose
      exact absurd (List.cons.inj hclose).1 hne
    next => rw [hmembers]

end Containers

/-! ## 5. Values -/

theorem value_scalar {c : Char} (harray : c ≠ '[') (hobject : c ≠ '{') (width depth : Nat)
    (s : List Char) : value width depth (c :: s) = scalar (c :: s) := by
  cases depth with
  | zero =>
    rw [value]
    · exact fun t h => harray (List.cons.inj h).1
    · exact fun t h => hobject (List.cons.inj h).1
  | succ depth =>
    rw [value]
    · exact fun t h => harray (List.cons.inj h).1
    · exact fun t h => hobject (List.cons.inj h).1

/-- A written value is read back, up to where no number can go on. -/
theorem Writable.readsBack {d : Nat} {v : Value} (h : Writable d v) {width depth : Nat}
    (hdepth : d ≤ depth) (hwidth : v.toJson.length ≤ width) :
    ReadsBack (value width depth) v := by
  -- One case per form of value; each container uses up one of the depth.
  induction h generalizing depth with
  | null =>
    intro r _
    rw [Value.settled]
    exact value_scalar (by decide) (by decide) width depth _
  | bool b =>
    intro r _
    rw [Value.settled]
    cases b with
    | true => exact value_scalar (by decide) (by decide) width depth _
    | false => exact value_scalar (by decide) (by decide) width depth _
  | int hn =>
    intro r hr
    rw [Value.toJson, Value.settled]
    exact value_append (integerText_ofInt hn) hr width depth
  | @string _ t ht =>
    intro r _
    have htext : stringText t ++ r = '"' :: (t.flatMap pointText ++ '"' :: r) := by
      simp [stringText]
    rw [Value.toJson, Value.settled, htext, value_scalar (by decide) (by decide), scalar]
    simp only [string_written ht]
  | @array d vs hvs ih =>
    intro r _
    obtain ⟨depth, rfl⟩ : ∃ k, depth = k + 1 := ⟨depth - 1, by omega⟩
    have htext : (Value.array vs).toJson = '[' :: itemsText vs ++ [']'] := by rw [Value.toJson]
    have hlength : (itemsText vs).length + 2 ≤ width := by
      rw [htext, List.length_append, List.length_cons, List.length_singleton] at hwidth
      omega
    have hcount := length_le_separated (vs.map Value.toJson)
    rw [List.length_map, ← itemsText_eq] at hcount
    rw [htext, List.append_assoc, List.cons_append, value]
    apply array_written (by omega)
    · intro v hv
      have hpart := length_part_le (List.mem_map_of_mem (f := Value.toJson) hv)
      rw [← itemsText_eq] at hpart
      exact ih v hv (by omega) (by omega)
    · exact fun v hv => (hvs v hv).starts
  | @object d fs hnames hfs ih =>
    intro r _
    obtain ⟨depth, rfl⟩ : ∃ k, depth = k + 1 := ⟨depth - 1, by omega⟩
    have htext : (Value.object fs).toJson = '{' :: fieldsText fs ++ ['}'] := by rw [Value.toJson]
    have hlength : (fieldsText fs).length + 2 ≤ width := by
      rw [htext, List.length_append, List.length_cons, List.length_singleton] at hwidth
      omega
    have hcount := length_le_separated (fs.map fieldText)
    rw [List.length_map, ← fieldsText_eq] at hcount
    rw [htext, List.append_assoc, List.cons_append, value]
    apply object_written (by omega) hnames
    · intro f hf
      have hpart := length_part_le (List.mem_map_of_mem (f := fieldText) hf)
      rw [← fieldsText_eq, fieldText, List.length_append, List.length_cons, List.length_cons] at hpart
      exact ih f hf (by omega) (by omega)
    · exact fun f hf => (hfs f hf).starts

/-! ## 6. Whole texts -/

/-- Whatever the strings are, the text of a value is ASCII from the space to the tilde. -/
theorem Writable.spaceToTilde {d : Nat} {v : Value} (h : Writable d v) : SpaceToTilde v.toJson := by
  induction h with
  | null =>
    rw [Value.toJson]
    exact show SpaceToTilde ['n', 'u', 'l', 'l'] by simp [SpaceToTilde]
  | bool b =>
    rw [Value.toJson]
    cases b with
    | true => exact show SpaceToTilde ['t', 'r', 'u', 'e'] by simp [SpaceToTilde]
    | false => exact show SpaceToTilde ['f', 'a', 'l', 's', 'e'] by simp [SpaceToTilde]
  | @int _ n _ =>
    rw [Value.toJson]
    intro c hc
    rcases Numeral.mem_ofInt hc with rfl | hdigit
    · decide
    · simp only [Char.isDigit, Bool.and_eq_true, decide_eq_true_eq] at hdigit
      exact ⟨Char.le_trans (by decide) hdigit.1, Char.le_trans hdigit.2 (by decide)⟩
  | string _ =>
    rw [Value.toJson]
    exact spaceToTilde_stringText _
  | array _ ih =>
    have hitems := spaceToTilde_separated (List.forall_mem_map.2 ih)
    rw [Value.toJson, itemsText_eq]
    exact (hitems.cons (by decide)).append (spaceToTilde_nil.cons (by decide))
  | @object _ fs _ _ ih =>
    have hfield : ∀ f ∈ fs, SpaceToTilde (fieldText f) := fun f hf =>
      (spaceToTilde_stringText f.1).append (((ih f hf).cons (by decide)).cons (by decide))
    have hfields := spaceToTilde_separated (List.forall_mem_map.2 hfield)
    rw [Value.toJson, fieldsText_eq]
    exact (hfields.cons (by decide)).append (spaceToTilde_nil.cons (by decide))

/-- The text of a value is read as that value, with the pairs of each object inserted in order. -/
theorem Writable.read_toJson {d : Nat} {v : Value} (h : Writable d v) (hd : d ≤ nestingLimit) :
    read v.toJson = .ok v.settled := by
  have hstops : Stops [] := by
    intro c hc
    cases hc
  have hvalue := h.readsBack hd le_rfl [] hstops
  rw [List.append_nil] at hvalue
  have hmark : v.toJson.head? ≠ some '\uFEFF' := by
    intro hhead
    have hmark := h.spaceToTilde '\uFEFF' (List.mem_of_mem_head? hhead)
    exact absurd hmark (by decide)
  have hdocument : document nestingLimit v.toJson = .ok v.settled := by
    apply document_of_value hmark (List.forall_mem_nil _)
    rwa [h.starts.skipSpace_eq]
  rw [read, hdocument]

end Json
end GoldenCheck
