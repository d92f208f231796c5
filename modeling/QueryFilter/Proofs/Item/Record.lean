import QueryFilter.Item.Basic
import QueryFilter.Proofs.Json.Fields
import QueryFilter.Proofs.Outcome

/-! # Items as records

When the fields of an object make an item, and the target of an item that has the fields of a
target. A measure's column is read back under the title of the measure.
-/

namespace QueryFilter

open Json (Fields)

namespace Item

variable {fields : Fields} {item : Item}

theorem ofRecord_object_eq_ok_iff :
    ofRecord (.object fields) = .ok item ↔
      (∀ field ∈ fields, recordShape.checkField field = .ok ()) ∧ ofFields fields = item := by
  simp only [ofRecord, Json.RecordShape.read, map_eq_ok_iff, bind_eq_ok_iff, pure, Except.pure,
    Except.ok.injEq]
  constructor
  · rintro ⟨_, ⟨_, hc, rfl⟩, rfl⟩
    exact ⟨forM_eq_ok_iff.mp hc, rfl⟩
  · rintro ⟨hc, rfl⟩
    exact ⟨fields, ⟨(), forM_eq_ok_iff.mpr hc, rfl⟩, rfl⟩

theorem unwrap_object (h : ∀ inner, fields.get? "jaql" ≠ some (.object inner)) :
    unwrap (.object fields) = .object fields := by
  rw [unwrap, Json.get?]
  split
  · next inner hi => exact absurd hi (h inner)
  · rfl

end Item

namespace Target

def keys : List String := ["dim", "datatype", "level", "title", "agg"]

def title : Target → String
  | .column a => a.title
  | .measure m => m.title

def aggregation? : Target → Option String
  | .column _ => none
  | .measure m => some m.aggregation

/-- The target as it is read from its fields. -/
def reread : Target → Target
  | .column a => .column a
  | .measure m => .measure { m with column := { m.column with title := m.title } }

@[simp] theorem datatype_reread (t : Target) : t.reread.datatype = t.datatype := by
  cases t <;> rfl

@[simp] theorem expression_reread (t : Target) :
    t.reread.base.expression = t.base.expression := by
  cases t <;> rfl

theorem get?_fields (t : Target) :
    t.fields.get? "dim" = some (.string t.base.expression) ∧
      t.fields.get? "datatype" = some (.string t.base.datatype.name) ∧
      t.fields.get? "level" = t.base.level.map .string ∧
      t.fields.get? "title" = some (.string t.title) ∧
      t.fields.get? "agg" = t.aggregation?.map .string := by
  rcases t with ⟨⟨_, _, _, _ | _⟩⟩ | ⟨⟨_, _, _, _ | _⟩, _, _⟩ <;>
    exact ⟨rfl, rfl, rfl, rfl, rfl⟩

theorem text_of_mem_fields (t : Target) :
    ∀ field ∈ t.fields, field.1 ∈ keys ∧ ∃ text, field.2 = .string text := by
  rcases t with ⟨⟨_, _, _, _ | _⟩⟩ | ⟨⟨_, _, _, _ | _⟩, _, _⟩ <;>
    simp [fields, Measure.fields, Column.fields, keys]

theorem get?_fields_of_not_mem (t : Target) {key : String} (h : key ∉ keys) :
    t.fields.get? key = none := by
  rw [Fields.get?_eq_none_iff]
  rintro field hf rfl
  exact h (t.text_of_mem_fields field hf).1

theorem checkField_fields (t : Target) :
    ∀ field ∈ t.fields, Item.recordShape.checkField field = .ok () := by
  rintro ⟨key, value⟩ hf
  obtain ⟨hk, text, rfl⟩ := t.text_of_mem_fields _ hf
  simp only [keys, List.mem_cons, List.not_mem_nil, or_false] at hk
  rcases hk with rfl | rfl | rfl | rfl | rfl <;> rfl

end Target

namespace Item

theorem target?_ofFields {fields : Fields} {t : Target}
    (h : ∀ key ∈ Target.keys, fields.get? key = t.fields.get? key) :
    (ofFields fields).target? = some t.reread := by
  obtain ⟨hd, ht, hl, htitle, ha⟩ := t.get?_fields
  have h {key : String} (hk : key ∈ Target.keys) {value : Option Json}
      (he : t.fields.get? key = value) : fields.get? key = value := (h key hk).trans he
  have hd := h (by decide) hd
  have ht := h (by decide) ht
  have hl := h (by decide) hl
  have htitle := h (by decide) htitle
  have ha := h (by decide) ha
  rcases t with ⟨⟨_, _, _, level⟩⟩ | ⟨⟨_, _, _, level⟩, _, _⟩ <;> cases level <;>
    simp_all [target?, column?, ofFields, Fields.text?, Json.asString?, datatype, Target.base,
      Target.aggregation?, Target.reread, Target.title]

/-- The target of an item has its data type, and is the target that its own fields give. -/
theorem of_target?_eq_some {item : Item} {t : Target} (h : item.target? = some t) :
    t.base.datatype = item.datatype ∧ t.reread = t := by
  simp only [target?, column?, Option.map_map, Option.map_eq_some_iff, Function.comp] at h
  obtain ⟨dim, -, rfl⟩ := h
  split
  · exact ⟨rfl, rfl⟩
  · exact ⟨rfl, rfl⟩

theorem dim_eq_of_target? {item : Item} {t : Target} (h : item.target? = some t) :
    item.dim = some t.base.expression := by
  simp only [target?, column?, Option.map_map, Option.map_eq_some_iff, Function.comp] at h
  obtain ⟨dim, hd, rfl⟩ := h
  rw [hd]
  split <;> rfl

theorem ofPayload_targetFields (t : Target) :
    ofPayload (.object t.fields) = .ok (ofFields t.fields) := by
  have hj : t.fields.get? "jaql" = none := t.get?_fields_of_not_mem (by decide)
  rw [ofPayload, unwrap_object (by simp [hj]), ofRecord_object_eq_ok_iff]
  exact ⟨t.checkField_fields, rfl⟩

theorem formula_targetFields (t : Target) : (ofFields t.fields).formula = none := by
  have hf : t.fields.get? "formula" = none := t.get?_fields_of_not_mem (by decide)
  simp [ofFields, Fields.value?, hf]

end Item

end QueryFilter
