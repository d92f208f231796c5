import QueryFilter.Proofs.Instant.Reading

/-! # One form for each date

At most one reader accepts a text, so the order in which the readers are tried decides nothing.
-/

namespace QueryFilter.Instant

variable {text : List Char} {instant : Instant} {form form' : Form} {forms : List Form}

/-- The reader of a form. -/
def Form.read? : Form → List Char → Option Instant
  | .localTime => ofLocal?
  | .withOffset => ofOffset?
  | .dateAlone => ofDate?

theorem Form.read?_eq_some_iff : form.read? text = some instant ↔ form.Names text instant := by
  cases form with
  | localTime => exact ofLocal?_eq_some_iff
  | withOffset => exact ofOffset?_eq_some_iff
  | dateAlone => exact ofDate?_eq_some_iff

theorem Form.eq_of_isSome_read? (h : (form.read? text).isSome) (h' : (form'.read? text).isSome) :
    form = form' := by
  obtain ⟨instant, h⟩ := Option.isSome_iff_exists.mp h
  obtain ⟨instant', h'⟩ := Option.isSome_iff_exists.mp h'
  exact (Form.read?_eq_some_iff.mp h).form_unique (Form.read?_eq_some_iff.mp h')

theorem Form.read?_eq_none_of_endsInOffset (form : Form) (h : EndsInOffset text)
    (hf : form ≠ .withOffset) : form.read? text = none :=
  Option.eq_none_iff_forall_ne_some.mpr fun _ hr =>
    hf ((Form.read?_eq_some_iff.mp hr).endsInOffset_iff.mp h)

theorem findSome?_read?_eq_some_iff (h : ∀ form, form ∈ forms) :
    forms.findSome? (·.read? text) = some instant ↔
      ∃ form : Form, form.read? text = some instant := by
  constructor
  · intro hf
    obtain ⟨form, -, hr⟩ := List.exists_of_findSome?_eq_some hf
    exact ⟨form, hr⟩
  · rintro ⟨form, hr⟩
    cases hf : forms.findSome? (·.read? text) with
    | none =>
      have hn := List.findSome?_eq_none_iff.mp hf form (h form)
      rw [hr] at hn
      cases hn
    | some instant' =>
      obtain ⟨form', -, hr'⟩ := List.exists_of_findSome?_eq_some hf
      obtain rfl :=
        Form.eq_of_isSome_read? (Option.isSome_of_eq_some hr) (Option.isSome_of_eq_some hr')
      rw [← hr, hr']

theorem ofText?_eq_findSome? (s : String) :
    ofText? s =
      [Form.localTime, .withOffset, .dateAlone].findSome? (·.read? (Text.trim s.toList)) := by
  simp only [ofText?, List.findSome?_cons, List.findSome?_nil, Form.read?]
  cases ofLocal? (Text.trim s.toList) with
  | some instant => rfl
  | none =>
    cases ofOffset? (Text.trim s.toList) with
    | some instant => rfl
    | none => cases ofDate? (Text.trim s.toList) <;> rfl

theorem findSome?_read?_eq_ofText? (h : ∀ form, form ∈ forms) (s : String) :
    forms.findSome? (·.read? (Text.trim s.toList)) = ofText? s := by
  refine Option.ext fun instant => ?_
  rw [ofText?_eq_findSome?, findSome?_read?_eq_some_iff h,
    findSome?_read?_eq_some_iff (by rintro (_ | _ | _) <;> simp)]

theorem ofText?_of_endsInOffset {s : String} (h : EndsInOffset (Text.trim s.toList)) :
    ofText? s = ofOffset? (Text.trim s.toList) := by
  have hl : ofLocal? (Text.trim s.toList) = none :=
    Form.read?_eq_none_of_endsInOffset .localTime h (by rintro ⟨⟩)
  have hd : ofDate? (Text.trim s.toList) = none :=
    Form.read?_eq_none_of_endsInOffset .dateAlone h (by rintro ⟨⟩)
  simp only [ofText?, hl, hd]
  cases ofOffset? (Text.trim s.toList) <;> rfl

/-- Each form is read exactly where the text, without the blanks around it, is written in it, and
then in no other; so the forms can be tried in any order. What ends with an offset is neither taken
for a local time nor cut down to its date. -/
theorem ofText?_in_any_order (s : String) :
    let text := Text.trim s.toList
    (∀ (form : Form) instant, form.read? text = some instant ↔ form.Names text instant) ∧
    (∀ form form' : Form, (form.read? text).isSome → (form'.read? text).isSome → form = form') ∧
    (∀ forms : List Form, (∀ form, form ∈ forms) → forms.findSome? (·.read? text) = ofText? s) ∧
    (EndsInOffset text →
      ofLocal? text = none ∧ ofDate? text = none ∧ ofText? s = ofOffset? text) := by
  intro text
  refine ⟨fun form instant => Form.read?_eq_some_iff, fun form form' => Form.eq_of_isSome_read?,
    fun forms h => findSome?_read?_eq_ofText? h s, fun ho => ⟨?_, ?_, ofText?_of_endsInOffset ho⟩⟩
  · exact Form.read?_eq_none_of_endsInOffset .localTime ho (by rintro ⟨⟩)
  · exact Form.read?_eq_none_of_endsInOffset .dateAlone ho (by rintro ⟨⟩)

/-- A lower-case letter between date and time and a fraction before the offset, with the form of
local times tried last. -/
theorem ofText?_in_any_order_offset :
    let s := " 2024-03-01t12:00:00.5+02:00"
    let text := Text.trim s.toList
    let forms := [Form.dateAlone, .withOffset, .localTime]
    (Form.withOffset.read? text).isSome ∧ (∀ form, form ∈ forms) ∧ EndsInOffset text ∧
      Form.withOffset.Names text ⟨1709287200, 500000000⟩ ∧
      (∀ form : Form, (form.read? text).isSome → form = .withOffset) ∧
      forms.findSome? (·.read? text) = some ⟨1709287200, 500000000⟩ ∧
      ofLocal? text = none ∧ ofDate? text = none := by
  intro s text forms
  have hr : Form.withOffset.read? text = some ⟨1709287200, 500000000⟩ := by decide
  have hs : (Form.withOffset.read? text).isSome := Option.isSome_of_eq_some hr
  have hf : ∀ form, form ∈ forms := by rintro (_ | _ | _) <;> simp [forms]
  obtain ⟨hnames, hone, horder, hoffset⟩ := ofText?_in_any_order s
  have hn : Form.withOffset.Names text _ := (hnames .withOffset _).mp hr
  have he : EndsInOffset text := hn.endsInOffset_iff.mpr rfl
  obtain ⟨hl, hd, ho⟩ := hoffset he
  exact ⟨hs, hf, he, hn, fun form h => hone form .withOffset h hs,
    (horder forms hf).trans (ho.trans hr), hl, hd⟩

end QueryFilter.Instant
