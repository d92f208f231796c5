import QueryFilter.Proofs.Filter.Distinct
import QueryFilter.Proofs.Filter.Image
import QueryFilter.Proofs.Item.Reordered

/-! # Filters of conditions with their keys in another order

Which key decides what a condition is does not hang on the order of keys, and neither does what the
readers of kinds make of it. Only the bounds of a numeric filter are taken in written order. So two
such conditions give filters that are alike, up to the order of keys in what they write.
-/

namespace QueryFilter

open Json (Fields)
open Reading

/-- The filters are about one target and have one kind and one condition, up to the order of its
keys. -/
structure Filter.Alike (f g : Filter) : Prop where
  name_eq : f.kind.name = g.kind.name
  target?_eq : f.target? = g.target?
  condition : f.condition.Reordered g.condition
  settings_eq : f.settings = g.settings

theorem Filter.Alike.refl {f : Filter} (h : f.condition.Distinct) : f.Alike f :=
  ⟨rfl, rfl, h.reordered, rfl⟩

namespace Reading

variable {target : Target} {column : Column} {guid : String} {kind : Kind} {xs ys : Fields}

section Members

theorem memberList_of_reordered {x y : Json} (h : x.Reordered y) {names : List String}
    (hx : memberList x = .ok names) : memberList y = .ok names := by
  obtain ⟨items, rfl, hs, hf⟩ := memberList_eq_ok_iff.mp hx
  cases h with
  | @array _ items' hl h =>
    have hr : (Json.array items).Reordered (.array items') := .array hl h
    refine memberList_eq_ok_iff.mpr ⟨items', rfl, ?_, ?_⟩
    · intro item hi
      have hm := List.mem_map_of_mem (f := Json.asOperandText?) hi
      rw [← hr.map_eq (fun _ => rfl) fun _ => rfl] at hm
      obtain ⟨item', hi', he⟩ := List.mem_map.mp hm
      exact he ▸ hs item' hi'
    · rw [← hf, hr.filterMap_eq (fun _ => rfl) fun _ => rfl]

variable (h : (Json.object xs).Reordered (.object ys))

include h

theorem listedMembers_of_reordered {names : Option (List String)}
    (hx : listedMembers xs = .ok names) : listedMembers ys = .ok names := by
  cases names with
  | none =>
    rw [listedMembers_eq_ok_none_iff] at hx ⊢
    exact h.get?_eq_none hx
  | some names =>
    obtain ⟨x, hx, hm⟩ := listedMembers_eq_ok_some_iff.mp hx
    obtain ⟨y, hy, hr⟩ := h.exists_of_get?_eq_some hx
    exact listedMembers_eq_ok_some_iff.mpr ⟨y, hy, memberList_of_reordered hr hm⟩

theorem reordered_excludedFields :
    (Json.object (excludedFields xs)).Reordered (.object (excludedFields ys)) :=
  Json.Reordered.getD_nil (Json.Reordered.asObject? (h.get? "exclude"))

theorem membersFilter_of_reordered {settings : Settings} {f : Filter}
    (hx : membersFilter column xs settings = .ok f) : membersFilter column ys settings = .ok f := by
  obtain ⟨names, excluded, hn, he, rfl⟩ := membersFilter_eq_ok_iff.mp hx
  have hr := reordered_excludedFields h
  refine membersFilter_eq_ok_iff.mpr ⟨names, excluded, listedMembers_of_reordered h hn,
    listedMembers_of_reordered hr he, ?_⟩
  rw [hr.flag?_eq]

end Members

section Kinds

theorem rankingKind_of_reordered {rank : Rank} {count count' : Json}
    {source? source'? : Option Json} (hc : count.Reordered count')
    (hs : Option.Rel Json.Reordered source? source'?)
    (hx : rankingKind column rank count source? = .ok kind) :
    rankingKind column rank count' source'? = .ok kind := by
  obtain ⟨n, source, item, measure, hn, rfl, hi, hf, ht, rfl⟩ := rankingKind_eq_ok_iff.mp hx
  obtain ⟨source', rfl, hv⟩ := exists_of_rel_some hs
  obtain ⟨item', hi', hr⟩ := Item.exists_reordered_of_ofPayload hv hi
  refine rankingKind_eq_ok_iff.mpr ⟨n, source', item', measure, ?_, rfl, hi', ?_, ?_, rfl⟩
  · exact hc.scalar_eq (f := Json.asInt64?) (fun _ => rfl) (fun _ => rfl) ▸ hn
  · exact hr.isSome_formula_eq ▸ hf
  · exact hr.target?_eq ▸ ht

variable (h : (Json.object xs).Reordered (.object ys))

include h

theorem integer?_eq_of_reordered (key : String) : integer? xs key = integer? ys key := by
  have hv := h.value? key
  unfold integer?
  generalize Fields.value? xs key = v, Fields.value? ys key = w at hv ⊢
  cases hv with
  | none => rfl
  | some hr => simp only [hr.scalar_eq (f := Json.asInt64?) (fun _ => rfl) fun _ => rfl]

theorem dateBound?_of_reordered {key : String} {date : Option String}
    (hx : dateBound? xs key = .ok date) : dateBound? ys key = .ok date := by
  rw [dateBound?_eq_ok_iff] at hx ⊢
  refine ⟨?_, hx.2⟩
  have hv := hx.1 ▸ h.value? key
  cases date with
  | none => exact eq_none_of_rel hv
  | some date =>
    obtain ⟨y, hy, hr⟩ := exists_of_rel_some hv
    cases hr
    exact hy

theorem dateRangeKind_of_reordered (hx : dateRangeKind column xs = .ok kind) :
    dateRangeKind column ys = .ok kind := by
  obtain ⟨start, finish, hs, hf, rfl⟩ := dateRangeKind_eq_ok_iff.mp hx
  exact dateRangeKind_eq_ok_iff.mpr
    ⟨start, finish, dateBound?_of_reordered h hs, dateBound?_of_reordered h hf, rfl⟩

theorem reordered_activeFields :
    (Json.object (activeFields xs)).Reordered (.object (activeFields ys)) :=
  h.filter fun key => !Shape.passiveKeys.contains key

theorem textKind_of_reordered (hx : textKind column xs = .ok kind) :
    textKind column ys = .ok kind := by
  obtain ⟨operator, x, operand, ha, ho, rfl⟩ := textKind_eq_ok_iff.mp hx
  have hr := ha ▸ reordered_activeFields h
  obtain ⟨y, hy, hxy⟩ := hr.exists_of_mem (List.mem_singleton_self (operator.key, x))
  have hl : (activeFields ys).length = 1 := by simpa [Fields.keys] using hr.keys_perm.length_eq.symm
  obtain ⟨field, hf⟩ := List.length_eq_one_iff.mp hl
  obtain rfl : (operator.key, y) = field := by simpa [hf] using hy
  refine textKind_eq_ok_iff.mpr ⟨operator, y, operand, hf, ?_, rfl⟩
  exact hxy.scalar_eq (f := Json.asOperandText?) (fun _ => rfl) (fun _ => rfl) ▸ ho

end Kinds

theorem relativeKind_eq_of_reordered {x y : Json} (h : x.Reordered y) (period : Period) :
    relativeKind column period x = relativeKind column period y := by
  cases h with
  | object hd hp h =>
    have hr := Json.Reordered.object hd hp h
    simp only [relativeKind, integer?_eq_of_reordered hr, hr.text?_eq]
  | _ => rfl

section Bounds

theorem keys_ofBound_of_mapM {bounds : List Bound} (hx : xs.mapM numericBound = .ok bounds) :
    Fields.keys (bounds.map Condition.ofBound) = xs.keys := by
  rw [mapM_eq_ok_iff] at hx
  induction bounds generalizing xs with
  | nil => cases xs <;> simp_all [Fields.keys]
  | cons b bounds ih =>
    cases xs with
    | nil => simp at hx
    | cons field xs =>
      obtain ⟨hb, hx⟩ := List.cons.inj hx
      obtain ⟨hk, -⟩ := numericBound_eq_ok_iff.mp hb
      exact congrArg₂ List.cons hk.symm (ih hx)

theorem perm_of_mapM_numericBound (h : (Json.object xs).Reordered (.object ys))
    {bounds : List Bound} (hx : xs.mapM numericBound = .ok bounds) : xs.Perm ys := by
  have hn {zs : Fields} (hd : zs.keys.Nodup) : zs.Nodup := hd.of_map
  have hs : ∀ field ∈ xs, ∀ y, field.2.Reordered y → y = field.2 := by
    intro field hf y hr
    obtain ⟨b, -, -, hb⟩ := bound_of_mapM_numericBound hx hf
    exact hr.eq_of_scalar (fun _ => rfl) (fun _ => rfl) hb
  refine (List.perm_ext_iff_of_nodup (hn h.nodup_keys) (hn h.symm.nodup_keys)).mpr fun field => ?_
  constructor
  · intro hf
    obtain ⟨y, hy, hr⟩ := h.exists_of_mem hf
    obtain rfl := hs field hf y hr
    exact hy
  · intro hf
    obtain ⟨x, hx, hr⟩ := h.symm.exists_of_mem hf
    obtain rfl : field.2 = x := hs _ hx _ hr.symm
    exact hx

theorem exists_perm_of_mapM_numericBound (h : xs.Perm ys) {bounds : List Bound}
    (hx : xs.mapM numericBound = .ok bounds) :
    ∃ bounds', ys.mapM numericBound = .ok bounds' ∧ bounds.Perm bounds' := by
  have hb : ∀ field b, numericBound field = .ok b ↔ (numericBound field).toOption = some b := by
    intro field b
    cases numericBound field <;> simp [Except.toOption]
  rw [mapM_eq_ok_iff_mapM hb, mapM_eq_some_iff_filterMap] at hx
  obtain ⟨hs, rfl⟩ := hx
  refine ⟨_, (mapM_eq_ok_iff_mapM hb).mpr (mapM_eq_some_iff_filterMap.mpr ⟨?_, rfl⟩), h.filterMap _⟩
  exact fun field hf => hs field (h.mem_iff.mpr hf)

theorem exists_bounds_of_perm {first : Bound} {second : Option Bound} {bounds : List Bound}
    (h : (first :: second.toList).Perm bounds) :
    ∃ first' second', bounds = first' :: Option.toList second' := by
  have hl := h.length_eq
  cases bounds with
  | nil => cases hl
  | cons first' bounds =>
    cases bounds with
    | nil => exact ⟨first', none, rfl⟩
    | cons second' bounds =>
      cases bounds with
      | nil => exact ⟨first', some second', rfl⟩
      | cons => cases second <;> simp at hl

/-- The bounds may change places, as those of a range do that is written from above. -/
theorem exists_alike_of_numericKind (h : (Json.object xs).Reordered (.object ys))
    (hx : numericKind target xs = .ok kind) (guid : String) :
    ∃ kind', numericKind target ys = .ok kind' ∧
      (Filter.ofKind kind guid).Alike (.ofKind kind' guid) := by
  obtain ⟨first, second, hm, rfl⟩ := numericKind_eq_ok_iff.mp hx
  have hr := reordered_activeFields h
  have hp := perm_of_mapM_numericBound hr hm
  obtain ⟨bounds, hm', hb⟩ := exists_perm_of_mapM_numericBound hp hm
  obtain ⟨first', second', rfl⟩ := exists_bounds_of_perm hb
  refine ⟨.numeric target first' second', numericKind_eq_ok_iff.mpr ⟨_, _, hm', rfl⟩,
    rfl, rfl, ?_, rfl⟩
  have he := ofBounds_eq_map (keys_ofBound_of_mapM hm ▸ hr.nodup_keys)
  have he' := ofBounds_eq_map (keys_ofBound_of_mapM hm' ▸ hr.symm.nodup_keys)
  have hd := Condition.distinct_ofBounds first second
  show (Json.object (Condition.ofBounds first second)).Reordered
    (.object (Condition.ofBounds first' second'))
  rw [he] at hd ⊢
  rw [he']
  exact Json.reordered_of_perm (hb.map _) hd

end Bounds

section Conditions

variable (h : (Json.object xs).Reordered (.object ys))

include h

theorem exists_alike_of_comparisonKind (hx : comparisonKind target xs = .ok kind) (guid : String) :
    ∃ kind', comparisonKind target ys = .ok kind' ∧
      (Filter.ofKind kind guid).Alike (.ofKind kind' guid) := by
  have hrange := Shape.hasRange_eq_of_reordered h
  rcases comparisonKind_eq_ok_iff.mp hx with ⟨ht, hx⟩ | ⟨column, rfl, ⟨ht, hx⟩ | ⟨ht, hh, hx⟩⟩
  · obtain ⟨kind', hy, ha⟩ := exists_alike_of_numericKind h hx guid
    exact ⟨kind', comparisonKind_eq_ok_iff.mpr (.inl ⟨hrange ▸ ht, hy⟩), ha⟩
  · have hy := textKind_of_reordered h hx
    refine ⟨kind, comparisonKind_eq_ok_iff.mpr (.inr ⟨column, rfl, .inl ⟨ht, hy⟩⟩), .refl ?_⟩
    obtain ⟨operator, -, operand, -, -, rfl⟩ := textKind_eq_ok_iff.mp hx
    simp [Filter.ofKind, Filter.condition, Kind.condition, Fields.keys]
  · have hy := dateRangeKind_of_reordered h hx
    refine ⟨kind, comparisonKind_eq_ok_iff.mpr (.inr ⟨column, rfl, .inr ⟨ht, hrange ▸ hh, hy⟩⟩),
      .refl ?_⟩
    obtain ⟨start, finish, -, -, rfl⟩ := dateRangeKind_eq_ok_iff.mp hx
    exact Condition.distinct_dates start finish

theorem exists_alike_of_simpleFilter {f : Filter} (hx : simpleFilter target guid xs = .ok f) :
    ∃ g, simpleFilter target guid ys = .ok g ∧ f.Alike g := by
  have hd : f.condition.Distinct := f.distinct_condition fun _ hc =>
    absurd hc (Filter.not_carriesAlong_of_simpleFilter hx)
  have hl := h.get? "last"
  have hn := h.get? "next"
  simp only [Json.get?] at hl hn
  unfold simpleFilter simpleKind at hx ⊢
  generalize Fields.get? xs "last" = v, Fields.get? ys "last" = w at hl hx ⊢
  generalize Fields.get? xs "next" = v', Fields.get? ys "next" = w' at hn hx ⊢
  cases hl with
  | some hr =>
    dsimp only at hx
    rw [relativeKind_eq_of_reordered hr] at hx
    exact ⟨f, hx, .refl hd⟩
  | none =>
    cases hn with
    | some hr =>
      dsimp only at hx
      rw [relativeKind_eq_of_reordered hr] at hx
      exact ⟨f, hx, .refl hd⟩
    | none =>
      obtain ⟨kind, hk, rfl⟩ := map_eq_ok_iff.mp hx
      obtain ⟨kind', hk', ha⟩ := exists_alike_of_comparisonKind h hk guid
      exact ⟨_, map_eq_ok_iff.mpr ⟨kind', hk', rfl⟩, ha⟩

theorem notJoined_of_reordered (hx : NotJoined xs) : NotJoined ys :=
  ⟨h.get?_eq_none hx.1, h.get?_eq_none hx.2⟩

theorem notRanked_of_reordered (hx : NotRanked xs) : NotRanked ys :=
  ⟨h.get?_eq_none hx.1, h.get?_eq_none hx.2⟩

theorem undecided_of_reordered (hx : Undecided xs) : Undecided ys :=
  ⟨notJoined_of_reordered h hx.notJoined, notRanked_of_reordered h hx.notRanked,
    Shape.listsMembers_eq_of_reordered h ▸ hx.noMembers⟩

end Conditions

theorem alike_logical {connective : Connective} {filters filters' : List Filter}
    (h : List.Forall₂ Filter.Alike filters filters') :
    (Filter.ofKind (.logical target connective filters) guid).Alike
      (.ofKind (.logical target connective filters') guid) := by
  refine ⟨rfl, rfl, .single (.of_forall₂ ?_) _, rfl⟩
  rw [conditions_eq_map, conditions_eq_map, List.forall₂_map_left_iff, List.forall₂_map_right_iff]
  exact h.imp fun _ _ h => h.condition

/-- What one condition gives, the other gives as well, up to the order of keys. -/
theorem Gives.exists_alike {x y : Json} {f : Filter} (hx : Gives target guid x f)
    (h : x.Reordered y) : ∃ g, Gives target guid y g ∧ f.Alike g := by
  induction hx generalizing y with
  | @combination guid _ connective items filters hk ho hl _ ih =>
    obtain ⟨_, rfl⟩ := h.exists_object
    obtain ⟨_, hy, hr⟩ := h.exists_of_get?_eq_some hk
    cases hr with
    | @array _ items' hl' hr =>
      have parts : ∀ i item', items'[i]? = some item' → ∃ g,
          Gives target (partGuid guid i) item' g ∧ ∀ f, filters[i]? = some f → f.Alike g := by
        intro i item' hi'
        obtain ⟨hi, -⟩ := List.getElem?_eq_some_iff.mp hi'
        have hitem := List.getElem?_eq_getElem (l := items) (hl' ▸ hi)
        have hf := List.getElem?_eq_getElem (l := filters) (hl ▸ hl' ▸ hi)
        obtain ⟨g, hg, ha⟩ := ih i _ _ hitem hf (hr i _ _ hitem hi')
        exact ⟨g, hg, fun f hf' => Option.some.inj (hf.symm.trans hf') ▸ ha⟩
      obtain ⟨filters', hlf, hf'⟩ := exists_forall_getElem? parts
      refine ⟨_, .combination hy (fun hc => h.get?_eq_none (ho hc)) hlf
        fun i item' g hi hg => (hf' i item' g hi hg).1, alike_logical ?_⟩
      refine forall₂_of_getElem? (hl.symm.trans (hl'.trans hlf)) fun i f g hf hg => ?_
      obtain ⟨hi, -⟩ := List.getElem?_eq_some_iff.mp hg
      exact (hf' i _ g (List.getElem?_eq_getElem (hlf ▸ hi)) hg).2 f hf
  | ranking hj hk ht hr =>
    obtain ⟨_, rfl⟩ := h.exists_object
    obtain ⟨_, hy, hc⟩ := h.exists_of_get?_eq_some hk
    refine ⟨_, .ranking (notJoined_of_reordered h hj) hy (fun hb => h.get?_eq_none (ht hb))
      (rankingKind_of_reordered hc (h.get? "by") hr), .refl ?_⟩
    obtain ⟨measure, n, rfl⟩ := exists_ranking_of_rankingKind hr
    exact Condition.distinct_ofRanking ..
  | members hj hr hm hf =>
    obtain ⟨_, rfl⟩ := h.exists_object
    refine ⟨_, .members (notJoined_of_reordered h hj) (notRanked_of_reordered h hr)
      (Shape.listsMembers_eq_of_reordered h ▸ hm) (membersFilter_of_reordered h hf), .refl ?_⟩
    obtain ⟨names, excludes, deactivated, rfl⟩ := exists_of_membersFilter hf
    exact Condition.distinct_ofMembers ..
  | exclusion hu he _ ih =>
    obtain ⟨_, rfl⟩ := h.exists_object
    obtain ⟨_, hy, hr⟩ := h.exists_of_get?_eq_some he
    obtain ⟨g, hg, ha⟩ := ih hr
    exact ⟨_, .exclusion (undecided_of_reordered h hu) hy hg,
      rfl, ha.target?_eq, ha.condition.single _, rfl⟩
  | simple hu he hf =>
    obtain ⟨_, rfl⟩ := h.exists_object
    obtain ⟨g, hg, ha⟩ := exists_alike_of_simpleFilter h hf
    exact ⟨g, .simple (undecided_of_reordered h hu) (h.get?_eq_none he) hg, ha⟩

end Reading

end QueryFilter
