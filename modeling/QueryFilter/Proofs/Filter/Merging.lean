import QueryFilter.Proofs.Filter.Changes

/-! # Items written over others

A filter that keeps the item it was read from writes its own fields over that item, whatever has
become of the filter since. Main statement: of the fields that filters decide just the filter's own
are there afterwards, all other fields are those of the old item, and what is kept of the old item
stands first and in its order.
-/

namespace QueryFilter

open Json (Fields)

namespace Filter

/-- The fields that are written over those of a source: what the filter decides as the filter has
it, and all else as the source has it. -/
structure WrittenOver (f : Filter) (t : Target) (source fields : Fields) : Prop where
  nodup : source.keys.Nodup → fields.keys.Nodup
  others_eq : fields.filter (fun field => !modelKeys.contains field.1) =
    source.filter fun field => !modelKeys.contains field.1
  dim_eq : fields.get? "dim" = some (.string t.base.expression)
  datatype_eq : fields.get? "datatype" = some (.string t.base.datatype.name)
  level_eq : fields.get? "level" = t.base.level.map .string
  title_eq : fields.get? "title" = some (.string t.title)
  agg_eq : fields.get? "agg" = t.aggregation?.map .string
  filter_eq : fields.get? "filter" = some f.fullCondition
  multiSelection_eq : fields.get? "multiSelection" =
    if f.kind.name = "members" then some (.bool f.settings.multiSelection) else none
  keys_eq : fields.keys = (source.keys.filter fun key => fields.keys.contains key) ++
    fields.keys.filter fun key => !source.keys.contains key

variable {f : Filter} {t : Target} {source : Fields}

theorem get?_selectionField (f : Filter) :
    f.selectionField.get? "multiSelection" =
      if f.kind.name = "members" then some (.bool f.settings.multiSelection) else none := by
  obtain ⟨kind, settings⟩ := f
  cases kind <;> rfl

/-- The fields of the source that are kept come first, and then the typed ones that it did not
have. -/
theorem keys_mergedFields (ht : f.target? = some t) (source : Fields) :
    (f.mergedFields source).keys =
      source.keys.filter (fun key => !modelKeys.contains key || f.typedFields.hasKey key) ++
        f.typedFields.keys.filter fun key => !source.keys.contains key := by
  have hkept : Fields.keys (source.filter fun field =>
      !modelKeys.contains field.1 || f.typedFields.hasKey field.1) =
        source.keys.filter fun key => !modelKeys.contains key || f.typedFields.hasKey key := by
    rw [Fields.keys, Fields.keys, List.filter_map]
    rfl
  rw [mergedFields, Fields.keys_insertAll (nodup_keys_typedFields ht), hkept]
  refine congrArg _ (List.filter_congr fun key hk => ?_)
  obtain ⟨field, hf, rfl⟩ := List.mem_map.mp hk
  have hkey := Fields.hasKey_of_mem hf
  rw [Bool.not_inj_iff, Bool.eq_iff_iff, List.contains_iff_mem, List.contains_iff_mem,
    List.mem_filter, hkey, Bool.or_true, and_iff_left rfl]

theorem writtenOver_mergedFields (ht : f.target? = some t) (source : Fields) :
    f.WrittenOver t source (f.mergedFields source) := by
  have hkeys : ∀ key ∈ f.typedFields.keys, key ∈ modelKeys := by
    intro key hk
    obtain ⟨field, hf, rfl⟩ := List.mem_map.mp hk
    exact mem_modelKeys_typedFields ht field hf
  have hget : ∀ key ∈ modelKeys, (f.mergedFields source).get? key = f.typedFields.get? key :=
    fun key hk => by rw [get?_mergedFields ht, if_pos hk]
  have htarget : ∀ key ∈ Target.keys, (f.mergedFields source).get? key = t.fields.get? key := by
    have hm : ∀ key ∈ Target.keys, key ∈ modelKeys := by decide
    exact fun key hk => (hget key (hm key hk)).trans (get?_typedFields_target ht key hk)
  obtain ⟨hdim, hdatatype, hlevel, htitle, hagg⟩ := t.get?_fields
  exact {
    nodup := fun hd => Fields.nodup_keys_insertAll (hd.sublist (List.filter_sublist.map _))
    others_eq := by
      rw [mergedFields, Fields.filter_insertAll (p := fun key => !modelKeys.contains key)
        fun key hk => by simpa using hkeys key hk, List.filter_filter]
      exact List.filter_congr fun field _ =>
        Bool.and_eq_left_iff_imp.mpr fun h => Bool.or_eq_true_iff.mpr (.inl h)
    dim_eq := (htarget _ (by decide)).trans hdim
    datatype_eq := (htarget _ (by decide)).trans hdatatype
    level_eq := (htarget _ (by decide)).trans hlevel
    title_eq := (htarget _ (by decide)).trans htitle
    agg_eq := (htarget _ (by decide)).trans hagg
    filter_eq := (hget _ (by decide)).trans (get?_typedFields_filter ht)
    multiSelection_eq := by
      rw [hget _ (by decide), get?_typedFields_selection ht, get?_selectionField]
    keys_eq := filter_append_of_new (keys_mergedFields ht source) fun key hk => by
      simpa using (List.mem_filter.mp hk).2 }

/-- Unless it is custom, a filter with a source writes over it, whatever the filter has become. -/
theorem item_writtenOver_source (f : Filter) (source : Fields)
    (hs : f.settings.source = some (.object source)) (hc : ¬f.WrapsCustom) :
    ∃ t fields, f.target? = some t ∧ f.item = .object fields ∧ f.WrittenOver t source fields := by
  obtain ⟨t, ht⟩ := Option.ne_none_iff_exists'.mp (mt target?_eq_none_iff.mp hc)
  exact ⟨t, _, ht, item_eq_mergedFields ht hs, writtenOver_mergedFields ht source⟩

/-- An aggregation, a level and a choice of members are dropped with the filter that had them. -/
theorem item_writtenOver_source_replaced :
    let condition : Fields := [("members", .array [.string "2024"])]
    let source : Fields :=
      [("datasource", .string "Sample"), ("agg", .string "max"), ("dim", .string "[T.D]"),
       ("multiSelection", .bool true), ("level", .string "years"), ("collapsed", .bool true),
       ("datatype", .string "datetime"), ("filter", .object condition)]
    let kind : Kind := .text ⟨"[T.A]", "A", .text, none⟩ ⟨.contains, false⟩ "x"
    let f := (ofPayload (.object source) "g").changed [.replace (.exclude (ofKind kind "h"))]
    f.settings.source = some (.object source) ∧ ¬f.WrapsCustom ∧
      ∃ fields : Fields, f.item = .object fields ∧
        fields.filter (fun field => !modelKeys.contains field.1) =
          [("datasource", .string "Sample"), ("collapsed", .bool true)] ∧
        fields.get? "dim" = some (.string "[T.A]") ∧ fields.get? "agg" = none ∧
        fields.get? "level" = none ∧ fields.get? "multiSelection" = none := by
  intro condition source kind f
  have hs : f.settings.source = some (.object source) :=
    (source_changed _ _).trans (source_ofPayload _ _)
  have hc : ¬f.WrapsCustom := by
    rw [← target?_eq_none_iff]
    rintro ⟨⟩
  obtain ⟨t, fields, ht, hi, hw⟩ := item_writtenOver_source f source hs hc
  obtain rfl : .column ⟨"[T.A]", "A", .text, none⟩ = t := Option.some.inj ht
  exact ⟨hs, hc, fields, hi, hw.others_eq, hw.dim_eq, hw.agg_eq, hw.level_eq,
    hw.multiSelection_eq⟩

end Filter

end QueryFilter
