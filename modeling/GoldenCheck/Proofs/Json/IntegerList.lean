import GoldenCheck.Proofs.Json.IntegerText

/-!
# Lists of integers are read by their grammar

The reader takes a text for a list of integers exactly if the grammar does, whatever else it could read:
of the values that a text can hold only numbers without fraction and exponent are integers, and only
brackets make a list.
-/

namespace GoldenCheck
namespace Json

/-! ## 1. Items -/

theorem literal?_ne_int {s r : List Char} {n : Int} : literal? s ≠ some (.int n, r) := by
  intro h
  obtain ⟨l, hl, hs⟩ := List.exists_of_findSome?_eq_some h
  obtain ⟨t, -, ht⟩ := Option.map_eq_some_iff.1 hs
  have hv : l.2 = .int n := congrArg Prod.fst ht
  simp only [literals, List.mem_cons, List.not_mem_nil, or_false] at hl
  rcases hl with rfl | rfl | rfl | rfl | rfl | rfl <;> cases hv

theorem value_eq_int {width depth : Nat} {s r : List Char} {n : Int}
    (h : value width depth s = .ok (.int n, r)) : ∃ t, IntegerText t n ∧ s = t ++ r := by
  have hscalar : scalar s = .ok (.int n, r) := by
    cases depth with
    | zero =>
      simp only [value] at h
      split at h
      · contradiction
      · contradiction
      · exact h
    | succ depth =>
      simp only [value] at h
      split at h
      · obtain ⟨vs, hvs, -⟩ := array_eq_ok h
        cases hvs
      · obtain ⟨fields, hfields, -⟩ := object_eq_ok h
        cases hfields
      · exact h
  unfold scalar at hscalar
  split at hscalar
  · split at hscalar <;> cases hscalar
  · split at hscalar
    next hl => cases hscalar; exact absurd hl literal?_ne_int
    next => exact number_eq_int hscalar

theorem after?_of_ne {w c : Char} (h : w ≠ c) (word s : List Char) :
    after? (w :: word) (c :: s) = none :=
  if_neg h

/-- What starts as a number is no literal. -/
theorem literal?_number {t : List Char} {n : Int} (h : IntegerText t n) (r : List Char) :
    literal? (t ++ r) = none := by
  have digit_ne : ∀ {c d : Char}, d.isDigit = true → c.isDigit = false → c ≠ d := by
    rintro c d hd hc rfl
    rw [hd] at hc
    contradiction
  rw [literal?, List.findSome?_eq_none_iff]
  intro l hl
  rw [Option.map_eq_none_iff]
  simp only [literals, List.mem_cons, List.not_mem_nil, or_false] at hl
  cases h with
  | plain hwhole _ =>
    obtain ⟨c, rest, rfl, hc⟩ := hwhole.head_isDigit
    rcases hl with rfl | rfl | rfl | rfl | rfl | rfl <;>
      exact after?_of_ne (digit_ne hc (by decide)) _ _
  | negative hwhole _ =>
    obtain ⟨c, rest, rfl, hc⟩ := hwhole.head_isDigit
    rcases hl with rfl | rfl | rfl | rfl | rfl | rfl
    -- Only the last literal starts with a minus sign, and no digit follows it.
    all_goals first
      | exact after?_of_ne (by decide) _ _
      | exact (if_pos rfl).trans (after?_of_ne (digit_ne hc (by decide)) _ _)

theorem IntegerText.head {t : List Char} {n : Int} (h : IntegerText t n) :
    ∃ c rest, t = c :: rest ∧ (c = '-' ∨ c.isDigit = true) := by
  cases h with
  | plain hwhole _ =>
    obtain ⟨c, rest, rfl, hc⟩ := hwhole.head_isDigit
    exact ⟨c, rest, rfl, .inr hc⟩
  | negative _ _ => exact ⟨_, _, rfl, .inl rfl⟩

theorem value_append {t r : List Char} {n : Int} (h : IntegerText t n) (hr : Stops r)
    (width depth : Nat) : value width depth (t ++ r) = .ok (.int n, r) := by
  have hscalar : scalar (t ++ r) = .ok (.int n, r) := by
    have hliteral := literal?_number h r
    obtain ⟨c, rest, rfl, hc⟩ := h.head
    unfold scalar
    split
    next heq =>
      cases (List.cons.inj heq).1
      exact absurd hc (by decide)
    next =>
      rw [hliteral]
      exact number_append h hr
  obtain ⟨c, rest, rfl, hc⟩ := h.head
  cases depth with
  | zero =>
    simp only [value]
    split
    next heq => cases (List.cons.inj heq).1; exact absurd hc (by decide)
    next heq => cases (List.cons.inj heq).1; exact absurd hc (by decide)
    next => exact hscalar
  | succ depth =>
    simp only [value]
    split
    next heq => cases (List.cons.inj heq).1; exact absurd hc (by decide)
    next heq => cases (List.cons.inj heq).1; exact absurd hc (by decide)
    next => exact hscalar

theorem Blank.append {s t : List Char} (hs : Blank s) (ht : Blank t) : Blank (s ++ t) :=
  fun c hc => (List.mem_append.1 hc).elim (hs c) (ht c)

theorem ItemsText.blank_append {item : List Char → Int → Prop} {b body : List Char} {xs : List Int}
    (hb : Blank b) (h : ItemsText item body xs) : ItemsText item (b ++ body) xs := by
  cases h with
  | last hb' ht ha =>
    simp only [← List.append_assoc]
    exact .last (hb.append hb') ht ha
  | next hb' ht ha hrest =>
    simp only [← List.append_assoc]
    exact .next (hb.append hb') ht ha hrest

/-- Items that are read as integers are texts of integers with commas between them. -/
theorem items_eq_ints {w depth width : Nat} {s r : List Char} {xs : List Int}
    (h : items (value w depth) width s = .ok (xs.map .int, r)) :
    ∃ body, ItemsText IntegerText body xs ∧ s = body ++ ']' :: r := by
  have hempty : Blank [] := nofun
  -- The width bounds how many items are still to come.
  induction width generalizing s xs r with
  | zero => contradiction
  | succ width ih =>
    simp only [items] at h
    split at h
    · contradiction
    next v t hv =>
      obtain ⟨a, ha, hskip⟩ := exists_blank t
      split at h
      next r' hclose =>
        obtain ⟨hvs, rfl⟩ := Prod.mk.inj (Except.ok.inj h)
        obtain ⟨x, rfl, rfl⟩ := List.map_eq_singleton_iff.1 hvs.symm
        obtain ⟨item, hitem, rfl⟩ := value_eq_int hv
        refine ⟨[] ++ item ++ a, .last hempty hitem ha, ?_⟩
        rw [hskip, hclose]
        simp
      next t' hcomma =>
        split at h
        next vs r' hrest =>
          obtain ⟨hvs, rfl⟩ := Prod.mk.inj (Except.ok.inj h)
          obtain ⟨x, ys, rfl, rfl, rfl⟩ := List.map_eq_cons_iff.1 hvs.symm
          obtain ⟨item, hitem, rfl⟩ := value_eq_int hv
          obtain ⟨body, hbody, hskip'⟩ := ih hrest
          obtain ⟨b, hb, ht'⟩ := exists_blank t'
          refine ⟨[] ++ item ++ a ++ ',' :: (b ++ body),
            .next hempty hitem ha (hbody.blank_append hb), ?_⟩
          rw [hskip, hcomma, ht', hskip']
          simp
        next => contradiction
      next => contradiction

theorem skipSpace_item {b t : List Char} {n : Int} (hb : Blank b) (ht : IntegerText t n)
    (u : List Char) : skipSpace (b ++ (t ++ u)) = t ++ u := by
  obtain ⟨c, rest, rfl, hc⟩ := ht.head
  have hspace : isSpace c = false := by
    by_contra hs
    rw [Bool.not_eq_false, isSpace_iff] at hs
    rcases hs with rfl | rfl | rfl | rfl <;> exact absurd hc (by decide)
  rw [skipSpace_append hb, List.cons_append, skipSpace_cons hspace]

theorem Blank.stops {a r : List Char} (ha : Blank a) (hr : Stops r) : Stops (a ++ r) := by
  cases a with
  | nil => exact hr
  | cons c a =>
    intro d hd
    obtain rfl := Option.some.inj hd
    rcases ha _ List.mem_cons_self with rfl | rfl | rfl | rfl <;> decide

theorem stops_bracket (r : List Char) : Stops (']' :: r) := by
  intro c hc
  obtain rfl := Option.some.inj hc
  decide

theorem stops_comma (r : List Char) : Stops (',' :: r) := by
  intro c hc
  obtain rfl := Option.some.inj hc
  decide

/-- Texts of integers with commas between them are read as these integers. -/
theorem items_append {body : List Char} {xs : List Int} (h : ItemsText IntegerText body xs)
    (w depth : Nat) {width : Nat} (hwidth : xs.length ≤ width) (r : List Char) :
    items (value w depth) width (skipSpace (body ++ ']' :: r)) = .ok (xs.map .int, r) := by
  -- Follows the grammar; each item uses up one of the width.
  induction h generalizing width with
  | @last b t a x hb ht ha =>
    obtain ⟨width, rfl⟩ : ∃ k, width = k + 1 := ⟨width - 1, by simp at hwidth; omega⟩
    have hvalue := value_append ht (ha.stops (stops_bracket r)) w depth
    rw [show b ++ t ++ a ++ ']' :: r = b ++ (t ++ (a ++ ']' :: r)) by simp, skipSpace_item hb ht,
      items, hvalue]
    simp only [skipSpace_append ha, skipSpace_cons (show isSpace ']' = false by decide)]
    rfl
  | @next b t a rest x xs hb ht ha _ ih =>
    obtain ⟨width, rfl⟩ : ∃ k, width = k + 1 := ⟨width - 1, by simp at hwidth; omega⟩
    have hvalue := value_append ht (ha.stops (stops_comma (rest ++ ']' :: r))) w depth
    have hrest := ih (show xs.length ≤ width by simp at hwidth; omega)
    rw [show b ++ t ++ a ++ ',' :: rest ++ ']' :: r = b ++ (t ++ (a ++ ',' :: (rest ++ ']' :: r)))
      by simp, skipSpace_item hb ht, items, hvalue]
    simp only [skipSpace_append ha, skipSpace_cons (show isSpace ',' = false by decide), hrest]
    rfl

theorem ItemsText.length_le {body : List Char} {xs : List Int}
    (h : ItemsText IntegerText body xs) : xs.length ≤ body.length := by
  have hitem : ∀ {t : List Char} {x : Int}, IntegerText t x → 1 ≤ t.length := by
    intro t x ht
    obtain ⟨c, rest, rfl, -⟩ := ht.head
    simp
  induction h with
  | last _ ht _ =>
    have := hitem ht
    simp
    omega
  | next _ ht _ _ ih =>
    have := hitem ht
    simp
    omega

/-! ## 2. Whole texts -/

theorem value_eq_array {width depth : Nat} {s r : List Char} {vs : List Value}
    (h : value width (depth + 1) s = .ok (.array vs, r)) :
    ∃ t, s = '[' :: t ∧ array (value width depth) width t = .ok (.array vs, r) := by
  simp only [value] at h
  split at h
  next t => exact ⟨t, rfl, h⟩
  next =>
    obtain ⟨fields, hfields, -⟩ := object_eq_ok h
    cases hfields
  next => exact (scalar_isScalar h).elim

theorem array_eq_ints {w depth : Nat} {t r : List Char} {xs : List Int}
    (h : array (value w depth) w t = .ok (.array (xs.map .int), r)) :
    ∃ m, (Blank m ∧ xs = [] ∨ ItemsText IntegerText m xs) ∧ t = m ++ ']' :: r := by
  obtain ⟨b, hb, hskip⟩ := exists_blank t
  unfold array at h
  split at h
  next r' hclose =>
    obtain ⟨hxs, rfl⟩ := Prod.mk.inj (Except.ok.inj h)
    exact ⟨b, .inl ⟨hb, by simpa using hxs⟩, by rw [← hclose]; exact hskip⟩
  next =>
    split at h
    next vs r' hitems =>
      obtain ⟨hvs, rfl⟩ := Prod.mk.inj (Except.ok.inj h)
      rw [Value.array.inj hvs] at hitems
      obtain ⟨body, hbody, hbody'⟩ := items_eq_ints hitems
      refine ⟨b ++ body, .inr (hbody.blank_append hb), ?_⟩
      rw [List.append_assoc, ← hbody']
      exact hskip
    next => contradiction

theorem array_of_blank {m : List Char} (hm : Blank m) (value : List Char → Read Value) (w : Nat)
    (r : List Char) : array value w (m ++ ']' :: r) = .ok (.array [], r) := by
  rw [array, skipSpace_append hm, skipSpace_cons (by decide)]
  rfl

theorem ItemsText.skipSpace_ne {body : List Char} {xs : List Int}
    (h : ItemsText IntegerText body xs) (r s : List Char) : skipSpace (body ++ r) ≠ ']' :: s := by
  -- What comes first is an item.
  have hitem : ∀ {b t : List Char} {x : Int} (u : List Char), Blank b → IntegerText t x →
      skipSpace (b ++ (t ++ u)) ≠ ']' :: s := by
    intro b t x u hb ht hclose
    rw [skipSpace_item hb ht] at hclose
    obtain ⟨c, rest, rfl, hc⟩ := ht.head
    cases (List.cons.inj hclose).1
    exact absurd hc (by decide)
  cases h with
  | last hb ht _ =>
    simp only [List.append_assoc]
    exact hitem _ hb ht
  | next hb ht _ _ =>
    simp only [List.append_assoc]
    exact hitem _ hb ht

theorem array_of_items {body : List Char} {xs : List Int} (h : ItemsText IntegerText body xs)
    {w : Nat} (hw : xs.length ≤ w) (depth : Nat) (r : List Char) :
    array (value w depth) w (body ++ ']' :: r) = .ok (.array (xs.map .int), r) := by
  unfold array
  split
  next s hclose => exact absurd hclose (h.skipSpace_ne _ s)
  next => rw [items_append h w depth hw r]

theorem document_eq_ok {depth : Nat} {text : List Char} {v : Value}
    (h : document depth text = .ok v) :
    ∃ b a, Blank b ∧ Blank a ∧ text = b ++ skipSpace text ∧
      value text.length depth (skipSpace text) = .ok (v, a) := by
  unfold document at h
  split at h
  · contradiction
  · split at h
    · contradiction
    next rest hvalue =>
      split at h
      next hend =>
        cases h
        obtain ⟨b, hb, htext⟩ := exists_blank text
        obtain ⟨a, ha, hrest⟩ := exists_blank rest
        rw [hend, List.append_nil] at hrest
        subst hrest
        exact ⟨b, rest, hb, ha, htext, hvalue⟩
      next => contradiction

theorem document_of_value {depth : Nat} {text a : List Char} {v : Value}
    (hmark : text.head? ≠ some '\uFEFF') (ha : Blank a)
    (hvalue : value text.length depth (skipSpace text) = .ok (v, a)) :
    document depth text = .ok v := by
  unfold document
  split
  · exact absurd rfl hmark
  · rw [hvalue]
    simp only [skipSpace_blank ha]

theorem listText_iff {item : List Char → Int → Prop} {text : List Char} {xs : List Int} :
    ListText item text xs ↔
      ∃ b m a, Blank b ∧ (Blank m ∧ xs = [] ∨ ItemsText item m xs) ∧ Blank a ∧
        text = b ++ '[' :: (m ++ ']' :: a) := by
  constructor
  · intro h
    cases h with
    | empty hb hm ha => exact ⟨_, _, _, hb, .inl ⟨hm, rfl⟩, ha, by simp⟩
    | items hb hbody ha => exact ⟨_, _, _, hb, .inr hbody, ha, by simp⟩
  · rintro ⟨b, m, a, hb, ⟨hm, rfl⟩ | hbody, ha, rfl⟩
    · simpa using (ListText.empty hb hm ha : ListText item _ [])
    · simpa using ListText.items hb hbody ha

/-- A text is read as a list of integers if it is one by the grammar. -/
theorem read_eq_ints_iff {text : List Char} {xs : List Int} :
    read text = .ok (.array (xs.map .int)) ↔ ListText IntegerText text xs := by
  have hdocument : read text = .ok (.array (xs.map .int)) ↔
      document (999 + 1) text = .ok (.array (xs.map .int)) := by
    rw [read, show nestingLimit = 999 + 1 from rfl]
    cases document (999 + 1) text <;> simp
  rw [hdocument, listText_iff]
  constructor
  · intro h
    obtain ⟨b, a, hb, ha, htext, hvalue⟩ := document_eq_ok h
    obtain ⟨t, ht, harray⟩ := value_eq_array hvalue
    obtain ⟨m, hm, rfl⟩ := array_eq_ints harray
    exact ⟨b, m, a, hb, hm, ha, by rw [← ht]; exact htext⟩
  · rintro ⟨b, m, a, hb, hm, ha, rfl⟩
    have hmark : (b ++ '[' :: (m ++ ']' :: a)).head? ≠ some '\uFEFF' := by
      cases b with
      | nil => simp
      | cons c b =>
        rcases hb c List.mem_cons_self with rfl | rfl | rfl | rfl <;> simp
    refine document_of_value hmark ha ?_
    rw [skipSpace_append hb, skipSpace_cons (by decide), value]
    rcases hm with ⟨hm, rfl⟩ | hbody
    · exact array_of_blank hm _ _ a
    · -- Each item has a character, so the width of the text is enough.
      have hlength := hbody.length_le
      exact array_of_items hbody (by simp; omega) 999 a

end Json
end GoldenCheck
