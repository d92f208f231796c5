import QueryFilter.Json.Basic

/-! # Fields of objects

Looking up a key and membership of fields.
-/

namespace QueryFilter.Json.Fields

variable {fields : Fields} {key : String} {value : Json}

theorem get?_cons (k : String) (v : Json) (rest : Fields) (key : String) :
    get? ((k, v) :: rest) key = if k = key then some v else get? rest key := by
  split
  · next h => rw [h, get?_cons_self]
  · next h => exact get?_cons_of_ne h v rest

@[simp] theorem keys_cons (field : String × Json) (fields : Fields) :
    keys (field :: fields) = field.1 :: fields.keys := rfl

theorem mem_of_get? (h : fields.get? key = some value) : (key, value) ∈ fields := by
  induction fields with
  | nil => simp at h
  | cons field fields ih =>
    obtain ⟨k, v⟩ := field
    rw [get?_cons] at h
    split at h
    · simp_all
    · exact List.mem_cons_of_mem _ (ih h)

theorem get?_eq_none_iff : fields.get? key = none ↔ ∀ field ∈ fields, field.1 ≠ key := by
  induction fields with
  | nil => simp
  | cons field fields ih =>
    rw [get?_cons, List.forall_mem_cons, ← ih]
    split <;> simp_all

theorem get?_append (first second : Fields) (key : String) :
    get? (first ++ second) key = (first.get? key).or (second.get? key) := by
  induction first with
  | nil => simp
  | cons field first ih =>
    rw [List.cons_append, get?_cons, get?_cons, ih]
    split <;> rfl

theorem hasKey_of_mem {field : String × Json} (h : field ∈ fields) : fields.hasKey field.1 := by
  rw [hasKey, Option.isSome_iff_ne_none]
  exact fun hn => get?_eq_none_iff.mp hn field h rfl

theorem hasKey_eq_false_iff : fields.hasKey key = false ↔ fields.get? key = none := by
  rw [hasKey, Option.isSome_eq_false_iff, Option.isNone_iff_eq_none]

theorem get?_insert (fields : Fields) (k : String) (v : Json) (key : String) :
    (fields.insert k v).get? key = if k = key then some v else fields.get? key := by
  split
  · next h => rw [h, get?_insert_self]
  · next h => exact get?_insert_of_ne v h

theorem mem_of_mem_insert {field : String × Json} (h : field ∈ fields.insert key value) :
    field ∈ fields ∨ field = (key, value) := by
  induction fields with
  | nil => simpa [insert] using h
  | cons other fields ih =>
    obtain ⟨k, v⟩ := other
    rw [insert] at h
    split at h
    · next hk =>
      rw [hk, List.mem_cons] at h
      exact h.symm.imp_left (List.mem_cons_of_mem _)
    · rcases List.mem_cons.mp h with rfl | h
      · exact .inl (List.mem_cons_self ..)
      · exact (ih h).imp_left (List.mem_cons_of_mem _)

theorem nodup_keys_insert (hd : fields.keys.Nodup) : (fields.insert key value).keys.Nodup := by
  induction fields with
  | nil => simp [insert, keys]
  | cons field fields ih =>
    obtain ⟨k, v⟩ := field
    obtain ⟨hk, hd'⟩ := List.nodup_cons.mp hd
    rw [insert]
    split
    · exact hd
    · next hne =>
      refine List.nodup_cons.mpr ⟨fun hm => ?_, ih hd'⟩
      obtain ⟨field, hf, he⟩ := List.mem_map.mp hm
      rcases mem_of_mem_insert hf with hf | rfl
      · exact hk (List.mem_map.mpr ⟨field, hf, he⟩)
      · exact hne he.symm

theorem keys_insert (fields : Fields) (key : String) (value : Json) :
    (fields.insert key value).keys =
      if key ∈ fields.keys then fields.keys else fields.keys ++ [key] := by
  induction fields with
  | nil => rfl
  | cons field fields ih =>
    obtain ⟨k, v⟩ := field
    rw [insert]
    by_cases hk : k = key
    · rw [if_pos hk, if_pos (by simp [hk]), keys_cons, keys_cons]
    · have hm : key ∈ k :: keys fields ↔ key ∈ keys fields :=
        List.mem_cons.trans (or_iff_right (Ne.symm hk))
      rw [if_neg hk, keys_cons, ih, keys_cons]
      simp only [hm]
      split <;> rfl

theorem filter_insert {p : String → Bool} (h : p key = false) (fields : Fields) (value : Json) :
    ((fields.insert key value).filter fun field => p field.1) =
      fields.filter fun field => p field.1 := by
  induction fields with
  | nil => simp [insert, h]
  | cons field fields ih =>
    obtain ⟨k, v⟩ := field
    rw [insert]
    by_cases hk : k = key
    · rw [if_pos hk, List.filter_cons_of_neg (by simp [hk, h]),
        List.filter_cons_of_neg (by simp [hk, h])]
    · rw [if_neg hk, List.filter_cons, List.filter_cons, ih]

theorem insert_eq_append (h : fields.get? key = none) :
    fields.insert key value = fields ++ [(key, value)] := by
  induction fields with
  | nil => rfl
  | cons field fields ih =>
    obtain ⟨k, v⟩ := field
    rw [get?_cons] at h
    split at h
    · cases h
    · next hk => rw [insert, if_neg hk, ih h, List.cons_append]

theorem insert_eq_self (h : fields.get? key = some value) : fields.insert key value = fields := by
  induction fields with
  | nil => simp at h
  | cons field fields ih =>
    obtain ⟨k, v⟩ := field
    rw [get?_cons] at h
    rw [insert]
    split at h
    · next hk => rw [if_pos hk, Option.some.inj h]
    · next hk => rw [if_neg hk, ih h]

section InsertAll

variable {added : Fields}

theorem insertAll_cons (fields : Fields) (field : String × Json) (added : Fields) :
    fields.insertAll (field :: added) = (fields.insert field.1 field.2).insertAll added := rfl

/-- Of fields with distinct keys, those that are added count. -/
theorem get?_insertAll (hd : added.keys.Nodup) (fields : Fields) (key : String) :
    (fields.insertAll added).get? key = (added.get? key).or (fields.get? key) := by
  induction added generalizing fields with
  | nil => simp [insertAll]
  | cons field added ih =>
    obtain ⟨k, v⟩ := field
    obtain ⟨hk, hd⟩ := List.nodup_cons.mp hd
    rw [insertAll_cons, ih hd, get?_insert, get?_cons]
    split
    · next h =>
      subst h
      have hn : get? added k = none := by
        rw [get?_eq_none_iff]
        rintro field hf rfl
        have hm : field.1 ∈ keys added := List.mem_map_of_mem hf
        exact hk hm
      rw [hn, Option.none_or, Option.some_or]
    · rfl

theorem mem_of_mem_insertAll {field : String × Json} (h : field ∈ fields.insertAll added) :
    field ∈ fields ∨ field ∈ added := by
  induction added generalizing fields with
  | nil => exact .inl h
  | cons other added ih =>
    rcases ih (insertAll_cons fields other added ▸ h) with h | h
    · exact (mem_of_mem_insert h).imp_right fun he => List.mem_cons.mpr (.inl he)
    · exact .inr (List.mem_cons_of_mem _ h)

theorem nodup_keys_insertAll (hd : fields.keys.Nodup) : (fields.insertAll added).keys.Nodup := by
  induction added generalizing fields with
  | nil => exact hd
  | cons field added ih => exact insertAll_cons fields field added ▸ ih (nodup_keys_insert hd)

theorem keys_insertAll (hd : added.keys.Nodup) (fields : Fields) :
    (fields.insertAll added).keys =
      fields.keys ++ added.keys.filter fun key => !fields.keys.contains key := by
  induction added generalizing fields with
  | nil => exact (List.append_nil _).symm
  | cons field added ih =>
    obtain ⟨key, value⟩ := field
    obtain ⟨hk, hd⟩ := List.nodup_cons.mp hd
    rw [insertAll_cons, ih hd, keys_insert, keys_cons]
    by_cases hm : key ∈ fields.keys
    · rw [if_pos hm, List.filter_cons_of_neg (by simpa using hm)]
    · have hnew : (keys added).filter (fun other => !(fields.keys ++ [key]).contains other) =
          (keys added).filter fun other => !fields.keys.contains other := by
        refine List.filter_congr fun other ho => ?_
        have hne : other ≠ key := fun he => hk (he ▸ ho)
        simp [hne]
      rw [if_neg hm, hnew, List.filter_cons_of_pos (by simpa using hm), List.append_assoc,
        List.singleton_append]

theorem filter_insertAll {p : String → Bool} (h : ∀ key ∈ added.keys, p key = false)
    (fields : Fields) :
    ((fields.insertAll added).filter fun field => p field.1) =
      fields.filter fun field => p field.1 := by
  induction added generalizing fields with
  | nil => rfl
  | cons field added ih =>
    obtain ⟨hf, h⟩ := List.forall_mem_cons.mp h
    rw [insertAll_cons, ih h, filter_insert hf]

theorem insertAll_eq_append (hd : (keys (fields ++ added)).Nodup) :
    fields.insertAll added = fields ++ added := by
  induction added generalizing fields with
  | nil => simp [insertAll]
  | cons field added ih =>
    obtain ⟨k, v⟩ := field
    have hn : fields.get? k = none := by
      rw [get?_eq_none_iff]
      rintro field hf rfl
      rw [keys, List.map_append, List.map_cons] at hd
      exact (List.nodup_append.mp hd).2.2 _ (List.mem_map_of_mem hf) _ (List.mem_cons_self ..) rfl
    rw [insertAll_cons, insert_eq_append hn, ih (by simpa using hd), List.append_assoc,
      List.singleton_append]

theorem insertAll_nil (hd : added.keys.Nodup) : insertAll [] added = added :=
  insertAll_eq_append hd

theorem insertAll_eq_self (h : ∀ field ∈ added, fields.get? field.1 = some field.2) :
    fields.insertAll added = fields := by
  induction added with
  | nil => rfl
  | cons field added ih =>
    obtain ⟨hf, ha⟩ := List.forall_mem_cons.mp h
    rw [insertAll_cons, insert_eq_self hf, ih ha]

end InsertAll

theorem get?_filter (p : String → Bool) (fields : Fields) (key : String) :
    get? (fields.filter fun field => p field.1) key = if p key then fields.get? key else none := by
  induction fields with
  | nil => simp
  | cons field fields ih =>
    obtain ⟨k, v⟩ := field
    rw [List.filter_cons, get?_cons]
    by_cases hk : k = key
    · subst hk
      split
      · simp [*]
      · simp [*]
    · rw [if_neg hk]
      split
      · rw [get?_cons, if_neg hk, ih]
      · exact ih

theorem get?_of_mem (hd : fields.keys.Nodup) (h : (key, value) ∈ fields) :
    fields.get? key = some value := by
  induction fields with
  | nil => simp at h
  | cons field fields ih =>
    obtain ⟨k, v⟩ := field
    obtain ⟨hk, hd⟩ := List.nodup_cons.mp hd
    rw [get?_cons]
    rcases List.mem_cons.mp h with h | h
    · cases h; rw [if_pos rfl]
    · have hm : key ∈ keys fields := List.mem_map_of_mem h
      rw [if_neg fun he : k = key => hk (he ▸ hm), ih hd h]

end QueryFilter.Json.Fields
