import Mathlib.Data.List.Basic
import QueryFilter.Proofs.Filter.Derivation
import QueryFilter.Proofs.Filter.Settings

/-! # Guids of filters inside filters

The filters that a condition gives are named by where they stand: the guid of a filter inside
another one is the outer guid and, for each step inwards, a hyphen and the position. No decimal
number has a hyphen, so the way inwards can be read off the guid, and no two filters of one reading
share a guid.
-/

namespace QueryFilter

open Json (Fields)
open Reading

namespace Reading

theorem toList_toString_injective : Function.Injective fun n : Nat => (toString n).toList := by
  intro m n h
  have hd := congrArg (Nat.ofDigitChars 10 · 0) h
  simpa [Nat.toString_eq_repr, Nat.toList_repr] using hd

theorem hyphen_not_mem_toString (n : Nat) : '-' ∉ (toString n).toList := by
  intro h
  rw [Nat.toString_eq_repr, Nat.toList_repr] at h
  exact absurd (Nat.isDigit_of_mem_toDigits (by decide) (by decide) h) (by decide)

theorem toList_foldl_partGuid (guid : String) (path : List Nat) :
    (path.foldl partGuid guid).toList =
      guid.toList ++ ['-'].intercalate ([] :: path.map fun i => (toString i).toList) := by
  induction path generalizing guid with
  | nil => simp
  | cons i path ih =>
    rw [List.foldl_cons, ih]
    cases path <;> simp [partGuid, List.intercalate_cons_cons]

/-- The guid of a filter inside another one tells the way to it. -/
theorem foldl_partGuid_injective (guid : String) :
    Function.Injective (List.foldl partGuid guid) := by
  intro path path' h
  have hl := congrArg String.toList h
  simp only [toList_foldl_partGuid, List.append_cancel_left_eq] at hl
  have split (path : List Nat) :
      (['-'].intercalate ([] :: path.map fun i => (toString i).toList)).splitOn '-' =
        [] :: path.map fun i => (toString i).toList := by
    refine List.splitOn_intercalate '-' ?_ (List.cons_ne_nil _ _)
    refine List.forall_mem_cons.mpr ⟨List.not_mem_nil, List.forall_mem_map.mpr fun i _ => ?_⟩
    exact hyphen_not_mem_toString i
  have hs := congrArg (List.splitOn '-') hl
  rw [split, split, List.cons.injEq] at hs
  exact toList_toString_injective.list_map hs.2

end Reading

namespace Filter

/-- The filters directly inside a filter, in order. -/
def parts (f : Filter) : List Filter :=
  match f.kind with
  | .exclude inner => [inner]
  | .logical _ _ filters => filters
  | _ => []

/-- The filter at the end of a way inwards, each step of which is a position among the parts. -/
def at? : List Nat → Filter → Option Filter
  | [], f => some f
  | i :: path, f => f.parts[i]?.bind (at? path)

/-- Every filter inside has the guid for its place, and none comes with a background. -/
def NamedFrom (guid : String) (f : Filter) : Prop :=
  ∀ path inner, f.at? path = some inner →
    inner.guid = path.foldl partGuid guid ∧ inner.settings.background = none

variable {f : Filter} {target : Target} {guid : String}

theorem namedFrom_of_parts (hg : f.guid = guid) (hb : f.settings.background = none)
    (hp : ∀ i (part : Filter), f.parts[i]? = some part → part.NamedFrom (partGuid guid i)) :
    f.NamedFrom guid := by
  intro path inner h
  cases path with
  | nil =>
    cases h
    exact ⟨hg, hb⟩
  | cons i path =>
    obtain ⟨part, hi, h⟩ := Option.bind_eq_some_iff.mp h
    exact hp i part hi path inner h

theorem namedFrom_of_parts_eq_nil (hg : f.guid = guid) (hb : f.settings.background = none)
    (hp : f.parts = []) : f.NamedFrom guid :=
  namedFrom_of_parts hg hb (by simp [hp])

theorem NamedFrom.withSettings {settings : Settings} (h : f.NamedFrom guid)
    (hg : settings.guid = guid) (hb : settings.background = none) :
    (f.withSettings settings).NamedFrom guid :=
  namedFrom_of_parts hg hb fun i part hi path inner hp =>
    h (i :: path) inner (Option.bind_eq_some_iff.mpr ⟨part, hi, hp⟩)

theorem namedFrom_of_membersFilter {column : Column} {fields : Fields} {settings : Settings}
    (h : membersFilter column fields settings = .ok f) (hb : settings.background = none) :
    f.NamedFrom settings.guid := by
  obtain ⟨hg, -, hb'⟩ := carriedWith_of_membersFilter h
  obtain ⟨names, excludes, deactivated, rfl⟩ := exists_of_membersFilter h
  exact namedFrom_of_parts_eq_nil hg (hb'.trans hb) rfl

/-- By induction on what the condition gives: each combination and each exclusion names its parts
one step further in. -/
theorem namedFrom_of_gives {source : Json} (h : Gives target guid source f) : f.NamedFrom guid := by
  induction h with
  | combination _ _ hl _ ih =>
    refine namedFrom_of_parts rfl rfl fun i part hi => ?_
    have hi' : i < _ := (List.getElem?_eq_some_iff.mp hi).1
    exact ih i _ part (List.getElem?_eq_getElem (hl ▸ hi')) hi
  | ranking _ _ _ hr =>
    obtain ⟨measure, n, rfl⟩ := exists_ranking_of_rankingKind hr
    exact namedFrom_of_parts_eq_nil rfl rfl rfl
  | members _ _ _ h => exact namedFrom_of_membersFilter h rfl
  | exclusion _ _ _ ih =>
    refine namedFrom_of_parts rfl rfl fun i part hi => ?_
    cases i with
    | zero => cases hi; exact ih
    | succ i => cases hi
  | simple _ _ h =>
    obtain ⟨kind, rfl, ⟨period, value, -, hk⟩ | ⟨-, -, hk⟩⟩ := exists_kind_of_simpleFilter h
    · obtain ⟨offset, count, anchor, rfl⟩ := exists_relativeDate_of_relativeKind hk
      exact namedFrom_of_parts_eq_nil rfl rfl rfl
    · rcases kind_of_comparisonKind hk with
        ⟨first, second, rfl⟩ | ⟨column, rfl, ⟨operator, operand, rfl⟩ | ⟨start, finish, rfl⟩⟩ <;>
      exact namedFrom_of_parts_eq_nil rfl rfl rfl

theorem namedFrom_of_shapedFilter {item : Item} {settings : Settings} {shape : Shape}
    (h : shapedFilter item target settings shape = .ok f) (hb : settings.background = none) :
    f.NamedFrom settings.guid := by
  cases shape with
  | invalid => cases h
  | includeAll | advanced =>
    obtain rfl := Except.ok.inj h
    exact namedFrom_of_parts_eq_nil rfl hb rfl
  | specificItems =>
    have hn := namedFrom_of_membersFilter h
    exact hn hb
  | condition | dateRange | numericRange | period =>
    obtain ⟨g, hg, rfl⟩ := map_eq_ok_iff.mp h
    exact (namedFrom_of_gives (gives_of_conditionFilter hg)).withSettings rfl hb

theorem namedFrom_ofPayload (payload : Json) (guid : String) :
    (ofPayload payload guid).NamedFrom guid := by
  rw [ofPayload_eq]
  split
  · next f h =>
    obtain ⟨item, t, shape, hs⟩ := exists_shapedFilter_of_ofPayload? h
    exact namedFrom_of_shapedFilter hs rfl
  · exact namedFrom_of_parts_eq_nil rfl rfl rfl

/-- Whatever guids new filters take from the supply, none is left in a filter that was read: another
supply gives the same filter. The guids of the filter and of all filters inside it are the outer
guid followed by the positions of the steps inwards, and no two of them are equal; no filter comes
with a background, which could bring a guid of its own. -/
theorem guids_readFrom (supply : Nat → String) (payload : Json) (guid : String) :
    (∀ other, readFrom other payload guid = readFrom supply payload guid) ∧
    (∀ path f, (readFrom supply payload guid).at? path = some f →
      f.guid = path.foldl partGuid guid ∧ f.settings.background = none) ∧
    ∀ path path' f f', (readFrom supply payload guid).at? path = some f →
      (readFrom supply payload guid).at? path' = some f' → f.guid = f'.guid → path = path' := by
  have hr := readFrom_congr draftGuid supply payload guid
  have hn : (readFrom supply payload guid).NamedFrom guid := hr ▸ namedFrom_ofPayload payload guid
  refine ⟨fun other => readFrom_congr other supply payload guid, hn, ?_⟩
  intro path path' f f' h h' he
  apply foldl_partGuid_injective guid
  rw [← (hn path f h).1, ← (hn path' f' h').1, he]

/-- An exclusion as the second part of a combination: its inner filter and the last part, where all
new filters have one guid. -/
theorem guids_readFrom_nested :
    let word (s : String) : Json := .object [("contains", .string s)]
    let payload : Json := .object [("dim", .string "[T.A]"), ("datatype", .string "text"),
      ("filter", .object [("or", .array ([word "a", .object [("exclude", word "b")]] ++
        List.replicate 9 (word "c")))])]
    let root := readFrom (fun _ => "new") payload "g"
    root = ofPayload payload "g" ∧
      ∃ f f', root.at? [1, 0] = some f ∧ root.at? [10] = some f' ∧
        f.guid = "g-1-0" ∧ f'.guid = "g-10" ∧ f.guid ≠ f'.guid := by
  intro word payload root
  obtain ⟨ho, hg, hd⟩ := guids_readFrom (fun _ => "new") payload "g"
  have h : ∃ f, root.at? [1, 0] = some f := ⟨_, rfl⟩
  have h' : ∃ f, root.at? [10] = some f := ⟨_, rfl⟩
  obtain ⟨f, h⟩ := h
  obtain ⟨f', h'⟩ := h'
  refine ⟨(ho draftGuid).symm, f, f', h, h', (hg _ _ h).1, (hg _ _ h').1, fun he => ?_⟩
  exact absurd (hd _ _ _ _ h h' he) (by decide)

end Filter

end QueryFilter
