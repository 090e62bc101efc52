import GoldenCheck.CommandLine.Scan
import Mathlib.Data.List.Forall2
import Mathlib.Tactic.Common

/-!
# What a command line asks for, however it is arranged

A command line is made of items: flags, options with a value, and a word.  An option may be cut short, and
its value may follow it or be attached to it.  Each item is told from its own arguments alone, so the
events of a command line are those of its items in their order, whichever spelling each of them has.
-/

namespace GoldenCheck
namespace CommandLine

variable {κ : Type}

/-! ## 1. Words -/

theorem classify_word (opts : List (Opt κ)) {t : Text} (h : t.head? ≠ some dash) :
    classify opts t = .ok (.word t) :=
  if_pos h

theorem ne_separator_of_head? {t : Text} (h : t.head? ≠ some dash) : t ≠ separatorText := by
  intro ht
  rw [ht] at h
  exact h rfl

theorem slots_cons {opts : List (Opt κ)} {t : Text} {s : Slot κ} {ts : List Text} {ss : List (Slot κ)}
    (ht : t ≠ separatorText) (hs : classify opts t = .ok s) (hss : slots opts ts = .ok ss) :
    slots opts (t :: ts) = .ok (s :: ss) := by
  simp only [slots, if_neg ht, hs, hss]

theorem slots_word {opts : List (Opt κ)} {t : Text} {ts : List Text} {ss : List (Slot κ)}
    (ht : t.head? ≠ some dash) (hss : slots opts ts = .ok ss) :
    slots opts (t :: ts) = .ok (.word t :: ss) :=
  slots_cons (ne_separator_of_head? ht) (classify_word opts ht) hss

/-- A command line of words only is one group. -/
theorem scan_words (opts : List (Opt κ)) (before ts : List Text) :
    scan opts .many (some before) (ts.map .word) = ⟨[.words (before ++ ts)], none, []⟩ := by
  induction ts generalizing before with
  | nil =>
    rw [List.append_nil]
    rfl
  | cons t ts ih =>
    have hroom : Group.hasRoom .many before = true := rfl
    rw [List.map_cons, scan, if_pos hroom, ih, ← List.append_cons]

/-! ## 2. Abbreviated options -/

/-- The options of a command go by names that their first letters tell apart. -/
structure WellNamed (opts : List (Opt κ)) : Prop where
  dashes : ∀ o ∈ opts, separatorText <+: o.long
  noEquals : ∀ o ∈ opts, .char '=' ∉ o.long
  initials : opts.Pairwise fun o o' => o.long[2]? ≠ o'.long[2]?

/-- The name of an option in full, or cut short but not before its first letter. -/
def Abbreviates (name : Text) (o : Opt κ) : Prop := name <+: o.long ∧ 3 ≤ name.length

instance (name : Text) (o : Opt κ) : Decidable (Abbreviates name o) :=
  inferInstanceAs (Decidable (name <+: o.long ∧ 3 ≤ name.length))

namespace Abbreviates

variable {opts : List (Opt κ)} {o : Opt κ} {name : Text}

theorem initial (h : Abbreviates name o) : o.long[2]? = name[2]? := by
  obtain ⟨rest, hrest⟩ := h.1
  rw [← hrest, List.getElem?_append_left (by have := h.2; omega)]

theorem eq_dashes (h : Abbreviates name o) (hopts : WellNamed opts) (ho : o ∈ opts) :
    ∃ p rest, name = dash :: dash :: p :: rest := by
  have hdashes : separatorText <+: name :=
    List.prefix_of_prefix_length_le (hopts.dashes o ho) h.1 (by
      have := h.2
      change 2 ≤ name.length
      omega)
  obtain ⟨rest, rfl⟩ := hdashes
  cases rest with
  | nil => exact absurd h.2 (by decide)
  | cons p rest => exact ⟨p, rest, rfl⟩

theorem noEquals (h : Abbreviates name o) (hopts : WellNamed opts) (ho : o ∈ opts) :
    .char '=' ∉ name :=
  fun hmem => hopts.noEquals o ho (h.1.subset hmem)

/-- An abbreviation fits no option but its own. -/
theorem filter_eq (h : Abbreviates name o) (hopts : WellNamed opts) (ho : o ∈ opts) :
    opts.filter (fun o' => name.isPrefixOf o'.long) = [o] := by
  have hinitial : ∀ o' : Opt κ, name.isPrefixOf o'.long = true → o'.long[2]? = o.long[2]? := by
    intro o' hprefix
    rw [initial ⟨List.isPrefixOf_iff_prefix.1 hprefix, h.2⟩, h.initial]
  obtain ⟨before, after, rfl⟩ := List.append_of_mem ho
  have hpairs := List.pairwise_append.1 hopts.initials
  have hbefore : before.filter (fun o' => name.isPrefixOf o'.long) = [] := by
    rw [List.filter_eq_nil_iff]
    intro o' ho' hprefix
    exact hpairs.2.2 o' ho' o List.mem_cons_self (hinitial o' hprefix)
  have hafter : after.filter (fun o' => name.isPrefixOf o'.long) = [] := by
    rw [List.filter_eq_nil_iff]
    intro o' ho' hprefix
    exact (List.pairwise_cons.1 hpairs.2.1).1 o' ho' (hinitial o' hprefix).symm
  have hself : name.isPrefixOf o.long = true := List.isPrefixOf_iff_prefix.2 h.1
  rw [List.filter_append, List.filter_cons, if_pos hself, hbefore, hafter, List.nil_append]

/-- An abbreviation spells its own option in full, or none. -/
theorem spelled?_eq (h : Abbreviates name o) (hopts : WellNamed opts) (ho : o ∈ opts) :
    spelled? opts name = some (o, false) ∨ spelled? opts name = none := by
  obtain ⟨p, rest, hname⟩ := h.eq_dashes hopts ho
  cases hfind : opts.find? fun o' => o'.long = name with
  | none =>
    right
    simp only [spelled?, hfind]
    rw [hname]
  | some o' =>
    left
    have hlong : o'.long = name := by simpa using List.find?_some hfind
    have hmem : o' ∈ opts.filter fun o' => name.isPrefixOf o'.long := by
      rw [List.mem_filter]
      exact ⟨List.mem_of_find?_eq_some hfind, by rw [hlong]; simp⟩
    rw [h.filter_eq hopts ho, List.mem_singleton] at hmem
    simp only [spelled?, hfind, hmem]

end Abbreviates

theorem cutAt_of_notMem {p : CodePoint} {t : Text} (h : p ∉ t) : cutAt p t = none := by
  induction t with
  | nil => rfl
  | cons q t ih =>
    rw [List.mem_cons, not_or] at h
    rw [cutAt, if_neg (Ne.symm h.1), ih h.2]
    rfl

theorem cutAt_append {p : CodePoint} {s : Text} (h : p ∉ s) (t : Text) :
    cutAt p (s ++ p :: t) = some (s, t) := by
  induction s with
  | nil => exact if_pos rfl
  | cons q s ih =>
    rw [List.mem_cons, not_or] at h
    rw [List.cons_append, cutAt, if_neg (Ne.symm h.1), ih h.2]
    rfl

theorem readings_dashes (opts : List (Opt κ)) (p : CodePoint) (rest : Text) :
    readings opts (dash :: dash :: p :: rest) = abbreviated opts (dash :: dash :: p :: rest) := by
  rw [readings, if_pos rfl]

namespace Abbreviates

variable {opts : List (Opt κ)} {o : Opt κ} {name : Text}

theorem ne_separator (h : Abbreviates name o) (rest : Text) : name ++ rest ≠ separatorText := by
  intro heq
  have hlength := congrArg List.length heq
  rw [List.length_append] at hlength
  have := h.2
  change _ = 2 at hlength
  omega

/-- An abbreviation alone is its option. -/
theorem classify_alone (h : Abbreviates name o) (hopts : WellNamed opts) (ho : o ∈ opts) :
    classify opts name = .ok (.option o false none) := by
  obtain ⟨p, rest, hname⟩ := h.eq_dashes hopts ho
  have hcut := cutAt_of_notMem (h.noEquals hopts ho)
  have hreadings : readings opts name = [(.option o false none, o.long)] := by
    rw [hname, readings_dashes, ← hname, abbreviated, hcut]
    simp only [h.filter_eq hopts ho]
    rfl
  have hhead : ¬ name.head? ≠ some dash := by
    rw [hname]
    exact not_not.2 rfl
  have hlong : name ≠ [dash] := by
    rw [hname]
    simp
  rw [classify, if_neg hhead]
  rcases h.spelled?_eq hopts ho with hspelled | hspelled
  · rw [hspelled]
  · simp only [hspelled, if_neg hlong, withValue?, hcut, hreadings]

/-- An abbreviation with an equals sign is its option with a value attached, whatever the value. -/
theorem classify_attached (h : Abbreviates name o) (hopts : WellNamed opts) (ho : o ∈ opts)
    (t : Text) : classify opts (name ++ .char '=' :: t) = .ok (.option o false (some t)) := by
  obtain ⟨p, rest, hname⟩ := h.eq_dashes hopts ho
  have hcut := cutAt_append (h.noEquals hopts ho) t
  have hreadings : readings opts (name ++ .char '=' :: t) = [(.option o false (some t), o.long)] := by
    have hdashes : name ++ .char '=' :: t = dash :: dash :: p :: (rest ++ .char '=' :: t) := by
      rw [hname]
      rfl
    rw [hdashes, readings_dashes, ← hdashes, abbreviated, hcut]
    simp only [h.filter_eq hopts ho]
    rfl
  -- No option has an equals sign in its name.
  have hspelled : spelled? opts (name ++ .char '=' :: t) = none := by
    have hfind : (opts.find? fun o' => o'.long = name ++ .char '=' :: t) = none := by
      rw [List.find?_eq_none]
      intro o' ho' hlong
      apply hopts.noEquals o' ho'
      rw [of_decide_eq_true hlong]
      simp
    simp only [spelled?, hfind]
    rw [hname]
    rfl
  have hhead : ¬ (name ++ .char '=' :: t).head? ≠ some dash := by
    rw [hname]
    exact not_not.2 rfl
  have hlong : name ++ .char '=' :: t ≠ [dash] := by
    rw [hname]
    simp
  rw [classify, if_neg hhead]
  simp only [hspelled, if_neg hlong, withValue?, hcut]
  rcases h.spelled?_eq hopts ho with hname | hname
  · rw [hname]
    rfl
  · rw [hname]
    simp only [Option.map_none, hreadings]

end Abbreviates

/-! ## 3. Items -/

/-- What one part of a command line asks for. -/
inductive Item (κ : Type) where
  | flag (key : κ)
  | value (key : κ) (t : Text)
  | word (t : Text)
deriving DecidableEq

/-- The option of an item; a word has none. -/
def Item.kind : Item κ → Option κ
  | .flag k => some k
  | .value k _ => some k
  | .word _ => none

/-- The event that an item comes to. -/
def Item.event : Item κ → Event κ
  | .flag k => .flag k
  | .value k t => .value k (attachedValue t)
  | .word t => .words [t]

/-- The arguments that an item can be written as.  A value that follows its option does not start with a
dash, nor does a word; a value after an equals sign is any text. -/
inductive Spells (opts : List (Opt κ)) : Item κ → List Text → Prop
  | flag {k : κ} {short : Option CodePoint} {long name : Text} : .flag k short long ∈ opts →
    Abbreviates name (.flag k short long) → Spells opts (.flag k) [name]
  | separate {k : κ} {long name t : Text} : .valued k long ∈ opts →
    Abbreviates name (.valued k long) → t.head? ≠ some dash → Spells opts (.value k t) [name, t]
  | attached {k : κ} {long name : Text} (t : Text) : .valued k long ∈ opts →
    Abbreviates name (.valued k long) → Spells opts (.value k t) [name ++ .char '=' :: t]
  | word {t : Text} : t.head? ≠ some dash → Spells opts (.word t) [t]

/-- The slots of items, one after the other. -/
inductive Arranged : List (Item κ) → List (Slot κ) → Prop
  | nil : Arranged [] []
  | flag {k : κ} {short : Option CodePoint} {long : Text} {items : List (Item κ)}
    {ss : List (Slot κ)} : Arranged items ss →
    Arranged (.flag k :: items) (.option (.flag k short long) false none :: ss)
  | separate {k : κ} {long t : Text} {items : List (Item κ)} {ss : List (Slot κ)} :
    t ≠ separatorText → Arranged items ss →
    Arranged (.value k t :: items) (.option (.valued k long) false none :: .word t :: ss)
  | attached {k : κ} {long t : Text} {items : List (Item κ)} {ss : List (Slot κ)} :
    Arranged items ss → Arranged (.value k t :: items) (.option (.valued k long) false (some t) :: ss)
  | word {t : Text} {items : List (Item κ)} {ss : List (Slot κ)} :
    Arranged items ss → Arranged (.word t :: items) (.word t :: ss)

/-- However items are spelled, their arguments are arranged as the items are. -/
theorem slots_arranged {opts : List (Opt κ)} (hopts : WellNamed opts) {items : List (Item κ)}
    {groups : List (List Text)} (h : List.Forall₂ (Spells opts) items groups) :
    ∃ ss, slots opts groups.flatten = .ok ss ∧ Arranged items ss := by
  induction h with
  | nil => exact ⟨[], rfl, .nil⟩
  | @cons item group items groups hitem _ ih =>
    obtain ⟨ss, hss, harranged⟩ := ih
    rw [List.flatten_cons]
    cases hitem with
    | flag ho hname =>
      have hfirst := hname.classify_alone hopts ho
      have hne := hname.ne_separator []
      rw [List.append_nil] at hne
      exact ⟨_, slots_cons hne hfirst hss, .flag harranged⟩
    | separate ho hname ht =>
      have hfirst := hname.classify_alone hopts ho
      have hne := hname.ne_separator []
      rw [List.append_nil] at hne
      exact ⟨_, slots_cons hne hfirst (slots_word ht hss), .separate (ne_separator_of_head? ht) harranged⟩
    | attached t ho hname =>
      have hfirst := hname.classify_attached hopts ho t
      exact ⟨_, slots_cons (hname.ne_separator _) hfirst hss, .attached harranged⟩
    | word ht => exact ⟨_, slots_word ht hss, .word harranged⟩

/-! ## 4. Events -/

theorem attachedValue_of_ne {t : Text} (h : t ≠ separatorText) : attachedValue t = some t :=
  if_neg h

theorem Group.closed_of_ne {g : Group} (h : g ≠ some []) : g.closed = none := by
  unfold Group.closed
  split
  · exact absurd rfl h
  · rfl

/-- Once the group has its word, the options are met in their order after it. -/
theorem Arranged.scan_filled {opts : List (Opt κ)} {items : List (Item κ)} {ss : List (Slot κ)}
    (h : Arranged items ss) (hwords : ∀ t, .word t ∉ items) {g : Group} (hg : g ≠ some []) :
    scan opts .one g ss = ⟨g.closing ++ items.map Item.event, none, []⟩ := by
  have hnone : (none : Group) ≠ some [] := Option.some_ne_none [] |>.symm
  induction h generalizing g with
  | nil =>
    match g with
    | none => rfl
    | some [] => exact absurd rfl hg
    | some (t :: ts) => rfl
  | flag _ ih =>
    have hrest := ih (fun t ht => hwords t (List.mem_cons_of_mem _ ht)) hnone
    simp [scan, Group.closed_of_ne hg, hrest, Scan.prepend, Group.closing, Item.event]
  | separate ht _ ih =>
    have hrest := ih (fun t ht => hwords t (List.mem_cons_of_mem _ ht)) hnone
    simp [scan, Group.closed_of_ne hg, hrest, Scan.prepend, Group.closing, Item.event,
      attachedValue_of_ne ht]
  | attached _ ih =>
    have hrest := ih (fun t ht => hwords t (List.mem_cons_of_mem _ ht)) hnone
    simp [scan, Group.closed_of_ne hg, hrest, Scan.prepend, Group.closing, Item.event]
  | word _ _ => exact absurd List.mem_cons_self (hwords _)

/-- Whether an item is a word. -/
def Item.isWord : Item κ → Bool
  | .word _ => true
  | _ => false

/-- The group that has no word to the end is empty. -/
def emptyGroup (items : List (Item κ)) : List (Event κ) :=
  if items.any Item.isWord then [] else [.words []]

/-- With at most one word, the events are those of the items in their order. -/
theorem Arranged.scan_eq {opts : List (Opt κ)} {items : List (Item κ)} {ss : List (Slot κ)}
    (h : Arranged items ss) (honce : items.Pairwise fun i j => i.kind ≠ j.kind) :
    scan opts .one (some []) ss = ⟨items.map Item.event ++ emptyGroup items, none, []⟩ := by
  -- The group stays open over the options before the word; after it none can come.
  induction h with
  | nil => rfl
  | flag _ ih =>
    have hrest := ih (List.pairwise_cons.1 honce).2
    simp [scan, Group.closed, hrest, Scan.prepend, Group.closing, Item.event, emptyGroup, Item.isWord]
  | separate ht _ ih =>
    have hrest := ih (List.pairwise_cons.1 honce).2
    simp [scan, Group.closed, hrest, Scan.prepend, Group.closing, Item.event, emptyGroup, Item.isWord,
      attachedValue_of_ne ht]
  | attached _ ih =>
    have hrest := ih (List.pairwise_cons.1 honce).2
    simp [scan, Group.closed, hrest, Scan.prepend, Group.closing, Item.event, emptyGroup, Item.isWord]
  | @word t items ss harranged _ =>
    have hwords : ∀ s, .word s ∉ items := fun s hs => (List.pairwise_cons.1 honce).1 _ hs rfl
    have hroom : Group.hasRoom .one [] = true := rfl
    rw [scan, if_pos hroom, List.nil_append, harranged.scan_filled hwords (by simp)]
    simp [Group.closing, Item.event, emptyGroup, Item.isWord]

theorem Parsed.fold_append {α : Type} {step : α → Event κ → Parsed α} {a b : α} {es : List (Event κ)}
    (h : Parsed.fold step a es = .proceed b) (rest : List (Event κ)) :
    Parsed.fold step a (es ++ rest) = Parsed.fold step b rest := by
  induction es generalizing a with
  | nil =>
    cases h
    rfl
  | cons e es ih =>
    rw [List.cons_append, Parsed.fold]
    rw [Parsed.fold] at h
    cases hstep : step a e with
    | proceed c =>
      rw [hstep] at h
      exact ih h
    | help =>
      rw [hstep] at h
      cases h
    | misuse e =>
      rw [hstep] at h
      cases h

/-- A command line is parsed by taking in the events of its items, however they are spelled. -/
theorem parse_spelled {α : Type} {opts : List (Opt κ)} (hopts : WellNamed opts)
    {items : List (Item κ)} {groups : List (List Text)}
    (hspell : List.Forall₂ (Spells opts) items groups)
    (honce : items.Pairwise fun i j => i.kind ≠ j.kind) {step : α → Event κ → Parsed α} {a b : α}
    (hfold : Parsed.fold step a (items.map Item.event ++ emptyGroup items) = .proceed b) :
    parse opts .one step a groups.flatten = .proceed b := by
  obtain ⟨ss, hss, harranged⟩ := slots_arranged hopts hspell
  simp only [parse, hss, harranged.scan_eq honce, Parsed.ofScan, hfold, if_true]

end CommandLine
end GoldenCheck
