import QueryFilter.Json.Parser
import QueryFilter.Proofs.Json.Equality
import QueryFilter.Proofs.Outcome

/-! # Values read from texts

No object of a value that is read off a text has a key twice, since fields are inserted by key one
after the other.
-/

namespace QueryFilter.Json

theorem distinct_object_nil : (Json.object []).Distinct := by simp [Fields.keys]

theorem distinct_insert {fields : Fields} {key : String} {value : Json}
    (hf : (Json.object fields).Distinct) (hv : value.Distinct) :
    (Json.object (fields.insert key value)).Distinct := by
  obtain ⟨hd, hf⟩ := distinct_object_iff.mp hf
  refine .object (Fields.nodup_keys_insert hd) fun field hm => ?_
  rcases Fields.mem_of_mem_insert hm with hm | rfl
  · exact hf field hm
  · exact hv

namespace Parser

theorem eq_of_scanWord {value found : Json} {word text rest : List Char}
    (h : scanWord value word text = .ok (found, rest)) : found = value := by
  induction word generalizing text with
  | nil => cases h; rfl
  | cons c word ih =>
    cases text with
    | nil => cases h
    | cons d text =>
      rw [scanWord] at h
      split at h
      · exact ih h
      · cases h

mutual

theorem distinct_of_scanValue : ∀ {steps depth : Nat} {text rest : List Char} {value : Json},
    scanValue steps depth text = .ok (value, rest) → value.Distinct
  | 0, _, _, _, _, h => by cases h
  | steps + 1, depth, text, rest, value, h => by
    rw [scanValue] at h
    split at h
    · cases h
    · rw [eq_of_scanWord h]; exact .null
    · rw [eq_of_scanWord h]; exact .bool true
    · rw [eq_of_scanWord h]; exact .bool false
    · obtain ⟨⟨s, _⟩, -, h⟩ := bind_eq_ok_iff.mp h
      cases h
      exact .string s
    · obtain ⟨⟨n, _⟩, -, h⟩ := bind_eq_ok_iff.mp h
      cases h
      exact .number n
    · cases depth with
      | zero => cases h
      | succ depth =>
        dsimp only at h
        split at h
        · cases h
        · cases h
          exact .array (by simp)
        · obtain ⟨⟨items, _⟩, hi, h⟩ := bind_eq_ok_iff.mp h
          cases h
          exact .array (distinct_of_scanItems hi)
    · cases depth with
      | zero => cases h
      | succ depth =>
        dsimp only at h
        split at h
        · cases h
        · cases h
          exact distinct_object_nil
        · obtain ⟨⟨fields, _⟩, hf, h⟩ := bind_eq_ok_iff.mp h
          cases h
          exact distinct_of_scanFields distinct_object_nil hf
        · cases h
    · split at h
      · obtain ⟨⟨n, _⟩, -, h⟩ := bind_eq_ok_iff.mp h
        cases h
        exact .number n
      · cases h

theorem distinct_of_scanItems : ∀ {steps depth : Nat} {text rest : List Char} {items : List Json},
    scanItems steps depth text = .ok (items, rest) → ∀ item ∈ items, item.Distinct
  | 0, _, _, _, _, h => by cases h
  | steps + 1, depth, text, rest, items, h => by
    obtain ⟨⟨item, after⟩, hi, h⟩ := bind_eq_ok_iff.mp h
    have hi := distinct_of_scanValue hi
    dsimp only at h
    split at h
    · cases h
    · cases h
      exact List.forall_mem_singleton.mpr hi
    · split at h
      · cases h
      · cases h
      · obtain ⟨⟨items, _⟩, his, h⟩ := bind_eq_ok_iff.mp h
        cases h
        exact List.forall_mem_cons.mpr ⟨hi, distinct_of_scanItems his⟩
    · cases h

theorem distinct_of_scanFields : ∀ {steps depth : Nat} {fields found : Fields}
    {text rest : List Char}, (Json.object fields).Distinct →
      scanFields steps depth fields text = .ok (found, rest) → (Json.object found).Distinct
  | 0, _, _, _, _, _, _, h => by cases h
  | steps + 1, depth, fields, found, text, rest, hd, h => by
    obtain ⟨⟨key, after⟩, -, h⟩ := bind_eq_ok_iff.mp h
    dsimp only at h
    split at h
    · cases h
    · obtain ⟨⟨value, after⟩, hv, h⟩ := bind_eq_ok_iff.mp h
      have hd : (Json.object (fields.insert key value)).Distinct :=
        distinct_insert hd (distinct_of_scanValue hv)
      dsimp only at h
      split at h
      · cases h
      · cases h
        exact hd
      · split at h
        · cases h
        · exact distinct_of_scanFields hd h
        · cases h
        · cases h
      · cases h
    · cases h

end

end Parser

theorem distinct_of_parse {text : String} {value : Json} (h : parse text = .ok value) :
    value.Distinct := by
  unfold parse at h
  split at h
  · next found hs =>
    cases h
    obtain ⟨⟨_, _⟩, hv, h⟩ := bind_eq_ok_iff.mp hs
    dsimp only at h
    split at h
    · cases h
      exact Parser.distinct_of_scanValue hv
    · cases h
  · cases h

end QueryFilter.Json
