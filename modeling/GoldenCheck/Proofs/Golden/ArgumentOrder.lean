import GoldenCheck.Golden.Command
import GoldenCheck.Proofs.CommandLine.Arrangement
import GoldenCheck.Proofs.Golden.Rebuild

/-!
# The order and the spelling of arguments do not matter

The request of a command line is settled by which items it has: each item sets a part of the request that
no other item touches.  So two command lines with the same items, in whatever order and spelling, come to
one request, and the command does the same for both.
-/

namespace GoldenCheck
namespace Golden

open CommandLine

/-! ## 1. The items of a request -/

theorem goldenOptions_wellNamed : WellNamed goldenOptions := ⟨by decide, by decide, by decide⟩

/-- The request holds what the items say and nothing else.  A value that is just the separator counts as
none. -/
structure Request.Asks (r : Request) (items : List (Item GoldenOption)) : Prop where
  dir : ∀ t, r.dir = some t ↔ .value .dir t ∈ items ∧ t ≠ separatorText
  entry : ∀ t, r.entry = some t ↔ .value .entry t ∈ items ∧ t ≠ separatorText
  rebuild : r.rebuild = true ↔ .flag .rebuild ∈ items
  list : r.list = true ↔ .flag .list ∈ items
  case : ∀ t, r.case = some t ↔ .word t ∈ items

namespace Request.Asks

variable {r r' : Request} {items items' : List (Item GoldenOption)}

theorem nil : Request.Asks {} [] := by
  constructor <;> simp

/-- Items settle the request. -/
theorem unique (h : r.Asks items) (h' : r'.Asks items) : r = r' := by
  have hdir : r.dir = r'.dir := Option.ext fun t => (h.dir t).trans (h'.dir t).symm
  have hentry : r.entry = r'.entry := Option.ext fun t => (h.entry t).trans (h'.entry t).symm
  have hrebuild : r.rebuild = r'.rebuild := Bool.eq_iff_iff.2 (h.rebuild.trans h'.rebuild.symm)
  have hlist : r.list = r'.list := Bool.eq_iff_iff.2 (h.list.trans h'.list.symm)
  have hcase : r.case = r'.case := Option.ext fun t => (h.case t).trans (h'.case t).symm
  cases r
  cases r'
  simp only at hdir hentry hrebuild hlist hcase
  rw [hdir, hentry, hrebuild, hlist, hcase]

theorem perm (h : r.Asks items) (hperm : items.Perm items') : r.Asks items' where
  dir t := by rw [← hperm.mem_iff]; exact h.dir t
  entry t := by rw [← hperm.mem_iff]; exact h.entry t
  rebuild := by rw [← hperm.mem_iff]; exact h.rebuild
  list := by rw [← hperm.mem_iff]; exact h.list
  case t := by rw [← hperm.mem_iff]; exact h.case t

end Request.Asks

/-! ## 2. Items one after the other -/

theorem attachedValue_eq_some_iff {s t : Text} :
    attachedValue s = some t ↔ t = s ∧ t ≠ separatorText := by
  unfold attachedValue
  split
  next hs =>
    refine ⟨fun h => absurd h (Option.some_ne_none t).symm, fun h => absurd (h.1.trans hs) h.2⟩
  next hs =>
    rw [Option.some.injEq]
    exact ⟨fun h => ⟨h.symm, h ▸ hs⟩, fun h => h.1.symm⟩

/-- An item of a new kind sets its own part of the request. -/
theorem Request.Asks.step {r : Request} {items : List (Item GoldenOption)} (h : r.Asks items)
    {item : Item GoldenOption} (hnew : ∀ i ∈ items, i.kind ≠ item.kind)
    (hhelp : item ≠ .flag .help) :
    ∃ r', requestStep r item.event = .proceed r' ∧ r'.Asks (items ++ [item]) := by
  have hfresh : ∀ i : Item GoldenOption, i.kind = item.kind → i ∉ items :=
    fun i hkind hi => hnew i hi hkind
  cases item with
  | word s =>
    have hnone : ∀ t, .word t ∉ items := fun t => hfresh (.word t) rfl
    refine ⟨{ r with case := some s }, rfl, ?_⟩
    constructor <;> simp [h.dir, h.entry, h.rebuild, h.list, hnone, eq_comm]
  | flag k =>
    cases k with
    | help => exact absurd rfl hhelp
    | rebuild =>
      refine ⟨{ r with rebuild := true }, rfl, ?_⟩
      constructor <;> simp [h.dir, h.entry, h.list, h.case]
    | list =>
      refine ⟨{ r with list := true }, rfl, ?_⟩
      constructor <;> simp [h.dir, h.entry, h.rebuild, h.case]
    | dir | entry =>
      refine ⟨r, rfl, ?_⟩
      constructor <;> simp [h.dir, h.entry, h.rebuild, h.list, h.case]
  | value k s =>
    cases k with
    | dir =>
      have hnone : ∀ t, .value .dir t ∉ items := fun t => hfresh (.value .dir t) rfl
      refine ⟨{ r with dir := attachedValue s }, rfl, ?_⟩
      constructor <;> simp [h.entry, h.rebuild, h.list, h.case, hnone, attachedValue_eq_some_iff]
    | entry =>
      have hnone : ∀ t, .value .entry t ∉ items := fun t => hfresh (.value .entry t) rfl
      refine ⟨{ r with entry := attachedValue s }, rfl, ?_⟩
      constructor <;> simp [h.dir, h.rebuild, h.list, h.case, hnone, attachedValue_eq_some_iff]
    | help | rebuild | list =>
      refine ⟨r, rfl, ?_⟩
      constructor <;> simp [h.dir, h.entry, h.rebuild, h.list, h.case]

/-- Items of different kinds, none of them a call for help, add up to a request. -/
theorem Request.Asks.run {items before : List (Item GoldenOption)} {r : Request}
    (h : r.Asks before) (honce : (before ++ items).Pairwise fun i j => i.kind ≠ j.kind)
    (hhelp : .flag .help ∉ items) :
    ∃ r', Parsed.fold requestStep r (items.map Item.event) = .proceed r' ∧
      r'.Asks (before ++ items) := by
  -- Induction on the items that are left; the request holds those before them.
  induction items generalizing before r with
  | nil =>
    rw [List.append_nil]
    exact ⟨r, rfl, h⟩
  | cons item items ih =>
    have hnew : ∀ i ∈ before, i.kind ≠ item.kind := fun i hi =>
      (List.pairwise_append.1 honce).2.2 i hi item List.mem_cons_self
    rw [List.mem_cons, not_or] at hhelp
    obtain ⟨next, hnext, hasks⟩ := h.step hnew (Ne.symm hhelp.1)
    rw [List.append_cons] at honce
    obtain ⟨r', hr', hasks'⟩ := ih hasks honce hhelp.2
    rw [← List.append_cons] at hasks'
    refine ⟨r', ?_, hasks'⟩
    rw [List.map_cons, Parsed.fold, hnext]
    exact hr'

/-- Items are parsed into the request that holds them, in any order and spelling. -/
theorem parseRequest_spelled {items : List (Item GoldenOption)} {groups : List (List Text)}
    (honce : items.Pairwise fun i j => i.kind ≠ j.kind) (hhelp : .flag .help ∉ items)
    (hspell : List.Forall₂ (Spells goldenOptions) items groups) :
    ∃ r, parseRequest groups.flatten = .proceed r ∧ r.Asks items := by
  obtain ⟨r, hr, hasks⟩ := Request.Asks.nil.run honce hhelp
  rw [List.nil_append] at hasks
  refine ⟨r, parse_spelled goldenOptions_wellNamed hspell honce ?_, hasks⟩
  rw [Parsed.fold_append hr, emptyGroup]
  split
  next => rfl
  next hwords =>
    -- The empty group takes the case away, but there is none.
    have hcase : r.case = none := by
      rw [Option.eq_none_iff_forall_not_mem]
      intro t ht
      apply hwords
      rw [List.any_eq_true]
      exact ⟨.word t, (hasks.case t).1 ht, rfl⟩
    change Parsed.proceed { r with case := none } = .proceed r
    rw [← hcase]

/-! ## 3. The command -/

/-- Take at most one each of a root, an entry point, a rebuild, a listing and a case.  In whatever order
they come, with each option in full or cut short and each value after its option or attached to it, the
command does the same: what the request with just these items asks for. -/
theorem outcome_ignores_order_and_spelling {items items' : List (Item GoldenOption)}
    {groups groups' : List (List Text)} (honce : (items.map Item.kind).Nodup)
    (hhelp : .flag .help ∉ items) (hperm : items.Perm items')
    (hspell : List.Forall₂ (Spells goldenOptions) items groups)
    (hspell' : List.Forall₂ (Spells goldenOptions) items' groups') (env : Environment)
    (fs : FileSystem) :
    goldenCommand env fs groups.flatten = goldenCommand env fs groups'.flatten ∧
      ∃ r : Request, r.Asks items ∧ goldenCommand env fs groups.flatten =
        ((perform env fs r).1, Console.ofTranscript (perform env fs r).2) := by
  have hkinds : items.Pairwise fun i j => i.kind ≠ j.kind := List.pairwise_map.1 honce
  have hkinds' : items'.Pairwise fun i j => i.kind ≠ j.kind :=
    List.pairwise_map.1 ((hperm.map Item.kind).nodup_iff.1 honce)
  obtain ⟨r, hr, hasks⟩ := parseRequest_spelled hkinds hhelp hspell
  obtain ⟨r', hr', hasks'⟩ :=
    parseRequest_spelled hkinds' (fun hmem => hhelp (hperm.mem_iff.2 hmem)) hspell'
  have hsame : r = r' := hasks.unique (hasks'.perm hperm.symm)
  have hcommand : goldenCommand env fs groups.flatten =
      ((perform env fs r).1, Console.ofTranscript (perform env fs r).2) := by
    rw [goldenCommand, hr]
  refine ⟨?_, r, hasks, hcommand⟩
  rw [hcommand, goldenCommand, hr', ← hsame]

/-- The only case is rebuilt under another name: the case first or last, options in full or cut short. -/
theorem oneCase_outcome_ignores_order_and_spelling :
    goldenCommand unset oneCase ["a", "--dir", "golden", "--rebuild", "--entry=main"] =
        goldenCommand unset oneCase ["--en", "main", "--reb", "--d=golden", "a"] ∧
      (goldenCommand unset oneCase ["a", "--dir", "golden", "--rebuild", "--entry=main"]).2.out =
        "✅ Rebuilt golden/a/expected\n" := by
  have hdir : .valued .dir "--dir" ∈ goldenOptions := by simp [goldenOptions]
  have hentry : .valued .entry "--entry" ∈ goldenOptions := by simp [goldenOptions]
  have hrebuild : .flag .rebuild none "--rebuild" ∈ goldenOptions := by simp [goldenOptions]
  have hspell : List.Forall₂ (Spells goldenOptions)
      [.word "a", .value .dir "golden", .flag .rebuild, .value .entry "main"]
      [["a"], ["--dir", "golden"], ["--rebuild"], [Text.ofString "--entry" ++ .char '=' :: "main"]] :=
    .cons (.word (by decide)) (.cons (.separate hdir (by decide) (by decide))
      (.cons (.flag hrebuild (by decide)) (.cons (.attached "main" hentry (by decide)) .nil)))
  have hspell' : List.Forall₂ (Spells goldenOptions)
      [.value .entry "main", .flag .rebuild, .value .dir "golden", .word "a"]
      [["--en", "main"], ["--reb"], [Text.ofString "--d" ++ .char '=' :: "golden"], ["a"]] :=
    .cons (.separate hentry (by decide) (by decide)) (.cons (.flag hrebuild (by decide))
      (.cons (.attached "golden" hdir (by decide)) (.cons (.word (by decide)) .nil)))
  obtain ⟨hsame, -⟩ := outcome_ignores_order_and_spelling (by decide) (by decide) (by decide) hspell
    hspell' unset oneCase
  exact ⟨hsame, by decide⟩

end Golden
end GoldenCheck
