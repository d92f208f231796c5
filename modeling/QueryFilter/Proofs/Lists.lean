import Mathlib.Data.List.Forall2
import Mathlib.Data.List.Induction
import Mathlib.Data.List.Nodup
import QueryFilter.Filter.Basic

/-! # Lists of names and of parts

Lists of names without repetitions, lists that are related position by position, and what stands
against something or nothing.
-/

namespace QueryFilter

section Names

variable {name : String} {names kept others : List String}

theorem foldl_firstOccurrences (hn : names.Nodup)
    (hd : ∀ name ∈ names, name ∉ kept) :
    names.foldl (fun kept name => if kept.contains name then kept else kept ++ [name]) kept =
      kept ++ names := by
  induction names generalizing kept with
  | nil => simp
  | cons name names ih =>
    obtain ⟨hm, hn⟩ := List.nodup_cons.mp hn
    have hc : kept.contains name = false := by simpa using hd name (by simp)
    rw [List.foldl_cons, hc, if_neg (by simp), ih hn, List.append_assoc, List.singleton_append]
    intro other ho
    simp only [List.mem_append, List.mem_singleton, not_or]
    exact ⟨hd other (by simp [ho]), fun he => hm (he ▸ ho)⟩

theorem firstOccurrences_eq_self (h : names.Nodup) : firstOccurrences names = names :=
  foldl_firstOccurrences h (by simp)

theorem nodup_foldl_firstOccurrences (h : kept.Nodup) :
    (names.foldl (fun kept name => if kept.contains name then kept else kept ++ [name])
      kept).Nodup := by
  induction names generalizing kept with
  | nil => exact h
  | cons name names ih =>
    rw [List.foldl_cons]
    split
    · exact ih h
    · next hc =>
      refine ih (List.nodup_append.mpr ⟨h, by simp, ?_⟩)
      intro other ho last hl he
      rw [List.mem_singleton] at hl
      exact hc (by simpa [← hl, ← he] using ho)

theorem nodup_firstOccurrences : (firstOccurrences names).Nodup :=
  nodup_foldl_firstOccurrences .nil

theorem mem_foldl_firstOccurrences :
    name ∈ names.foldl (fun kept name => if kept.contains name then kept else kept ++ [name]) kept ↔
      name ∈ kept ∨ name ∈ names := by
  induction names generalizing kept with
  | nil => simp
  | cons other names ih =>
    rw [List.foldl_cons, ih, List.mem_cons]
    split
    · next hc =>
      have hc : other ∈ kept := by simpa using hc
      constructor
      · rintro (h | h)
        · exact .inl h
        · exact .inr (.inr h)
      · rintro (h | rfl | h)
        · exact .inl h
        · exact .inl hc
        · exact .inr h
    · simp [or_assoc]

theorem mem_firstOccurrences : name ∈ firstOccurrences names ↔ name ∈ names :=
  mem_foldl_firstOccurrences.trans (by simp)

theorem isEmpty_firstOccurrences (names : List String) :
    (firstOccurrences names).isEmpty = names.isEmpty := by
  rw [Bool.eq_iff_iff, List.isEmpty_iff, List.isEmpty_iff, List.eq_nil_iff_forall_not_mem,
    List.eq_nil_iff_forall_not_mem]
  simp only [mem_firstOccurrences]

theorem firstOccurrences_concat (names : List String) (name : String) :
    firstOccurrences (names ++ [name]) =
      if name ∈ names then firstOccurrences names else firstOccurrences names ++ [name] := by
  rw [firstOccurrences, List.foldl_append, ← firstOccurrences, List.foldl_cons, List.foldl_nil]
  simp only [List.contains_iff_mem, mem_firstOccurrences]

theorem firstOccurrences_append (names others : List String) :
    firstOccurrences (names ++ others) =
      firstOccurrences names ++
        firstOccurrences (others.filter fun name => !names.contains name) := by
  induction others using List.reverseRecOn with
  | nil => simp [firstOccurrences]
  | append_singleton others name ih =>
    rw [← List.append_assoc, firstOccurrences_concat, ih, List.filter_append]
    by_cases hn : name ∈ names
    · simp [hn]
    · have hf : ([name].filter fun name => !names.contains name) = [name] := by simp [hn]
      rw [hf, firstOccurrences_concat]
      by_cases ho : name ∈ others
      · simp [hn, ho]
      · simp [hn, ho]

theorem filter_append_new (names others : List String) :
    ((names ++ others).filter fun name => !names.contains name) =
      others.filter fun name => !names.contains name := by
  have h : (names.filter fun name => !names.contains name) = [] :=
    List.filter_eq_nil_iff.mpr fun name hn => by simpa using hn
  rw [List.filter_append, h, List.nil_append]

theorem filter_append_of_new {l : List String} {p : String → Bool}
    (hl : l = names.filter p ++ others) (hn : ∀ name ∈ others, name ∉ names) :
    l = (names.filter fun name => l.contains name) ++
      l.filter fun name => !names.contains name := by
  have hkept : (names.filter fun name => l.contains name) = names.filter p := by
    refine List.filter_congr fun name hm => ?_
    rw [Bool.eq_iff_iff, List.contains_iff_mem, hl, List.mem_append, List.mem_filter,
      or_iff_left fun ho => hn name ho hm, and_iff_right hm]
  have hold : (names.filter p).filter (fun name => !names.contains name) = [] := by
    rw [List.filter_eq_nil_iff]
    intro name hm
    simpa using (List.mem_filter.mp hm).1
  have hnew : (others.filter fun name => !names.contains name) = others :=
    List.filter_eq_self.mpr fun name hm => by simpa using hn name hm
  rw [hkept]
  conv_rhs => rw [hl, List.filter_append, hold, hnew, List.nil_append]
  exact hl

theorem filter_append_of_disjoint (h : ∀ name ∈ others, name ∉ names) :
    ((names ++ others).filter fun name => !others.contains name) = names := by
  have h₁ : (names.filter fun name => !others.contains name) = names :=
    List.filter_eq_self.mpr fun name hn => by simpa using fun ho => h name ho hn
  have h₂ : (others.filter fun name => !others.contains name) = [] :=
    List.filter_eq_nil_iff.mpr fun name hn => by simpa using hn
  rw [List.filter_append, h₁, h₂, List.append_nil]

theorem nodup_map_replaced {old new : String} (hn : names.Nodup)
    (h : old ∉ names ∨ new = old ∨ new ∉ names) :
    (names.map fun name => if name = old then new else name).Nodup := by
  have hd : old ∈ names → ∀ name ∈ names, name ≠ old → new ≠ name := by
    rintro ho name hm hne rfl
    rcases h with h | h | h
    · exact h ho
    · exact hne h
    · exact h hm
  refine hn.map_on fun name hm name' hm' he => ?_
  split at he <;> split at he
  · next ho ho' => exact ho.trans ho'.symm
  · next ho hne => exact absurd he (hd (ho ▸ hm) name' hm' hne)
  · next hne ho => exact absurd he.symm (hd (ho ▸ hm') name hm hne)
  · exact he

end Names

section Positions

variable {α β : Type} {xs : List α} {ys : List β}

theorem exists_forall_getElem? {R : Nat → α → β → Prop}
    (h : ∀ i x, xs[i]? = some x → ∃ y, R i x y) :
    ∃ ys : List β, xs.length = ys.length ∧
      ∀ i x y, xs[i]? = some x → ys[i]? = some y → R i x y := by
  induction xs generalizing R with
  | nil => exact ⟨[], rfl, by simp⟩
  | cons x xs ih =>
    obtain ⟨y, hy⟩ := h 0 x rfl
    obtain ⟨ys, hl, hys⟩ := ih (R := fun i => R (i + 1)) fun i x hx => h (i + 1) x hx
    refine ⟨y :: ys, by simp [hl], fun i x' y' hx hy' => ?_⟩
    cases i with
    | zero => simp_all
    | succ i => exact hys i x' y' hx hy'

theorem forall₂_of_getElem? {R : α → β → Prop} (hl : xs.length = ys.length)
    (h : ∀ (i : Nat) x y, xs[i]? = some x → ys[i]? = some y → R x y) :
    List.Forall₂ R xs ys := by
  rw [List.forall₂_iff_get]
  refine ⟨hl, fun i hx hy => h i _ _ ?_ ?_⟩
  · simp [List.getElem?_eq_getElem hx]
  · simp [List.getElem?_eq_getElem hy]

theorem map_eq_map_of_getElem? {γ : Type} {f : α → γ} {g : β → γ} (hl : xs.length = ys.length)
    (h : ∀ (i : Nat) x y, xs[i]? = some x → ys[i]? = some y → f x = g y) :
    xs.map f = ys.map g := by
  have he : List.Forall₂ (· = ·) (xs.map f) (ys.map g) := by
    rw [List.forall₂_map_left_iff, List.forall₂_map_right_iff]
    exact forall₂_of_getElem? hl h
  rwa [List.forall₂_eq_eq_eq] at he

theorem forall₂_congr_of_mem {R S : α → β → Prop} (h : ∀ x, ∀ y ∈ ys, R x y ↔ S x y) :
    List.Forall₂ R xs ys ↔ List.Forall₂ S xs ys := by
  induction ys generalizing xs with
  | nil => simp
  | cons y ys ih =>
    have hy : ∀ x, R x y ↔ S x y := fun x => h x y (by simp)
    have hys : ∀ {xs}, List.Forall₂ R xs ys ↔ List.Forall₂ S xs ys :=
      ih fun x z hz => h x z (by simp [hz])
    cases xs with
    | nil => simp
    | cons x xs => rw [List.forall₂_cons, List.forall₂_cons, hy, hys]

theorem eq_of_map_eq_of_nodup {f : α → β} {others : List α} (he : xs.map f = others.map f)
    (hn : (others.map f).Nodup) (hs : ∀ x ∈ xs, x ∈ others) : xs = others := by
  have hl : xs.length = others.length := by simpa using congrArg List.length he
  refine List.ext_getElem hl fun i hi hi' => ?_
  refine List.inj_on_of_nodup_map hn (hs _ (List.getElem_mem hi)) (List.getElem_mem hi') ?_
  have h : (xs.map f)[i]? = (others.map f)[i]? := congrArg (·[i]?) he
  simpa [List.getElem?_eq_getElem, hi, hi'] using h

end Positions

section Options

variable {α β : Type} {R : α → β → Prop} {a : α} {b : Option β}

theorem exists_of_rel_some (h : Option.Rel R (some a) b) : ∃ b', b = some b' ∧ R a b' := by
  cases h with
  | some h => exact ⟨_, rfl, h⟩

theorem eq_none_of_rel (h : Option.Rel R none b) : b = none := by
  cases h
  rfl

variable {x : Option α}

theorem rel_or {x' : Option α} {b' : Option β} (h : Option.Rel R x b) (h' : Option.Rel R x' b') :
    Option.Rel R (x.or x') (b.or b') := by
  cases h with
  | some h => exact .some h
  | none => exact h'

theorem isSome_eq_of_rel (h : Option.Rel R x b) : x.isSome = b.isSome := by
  cases h <;> rfl

theorem bind_eq_of_rel {γ : Type} {f : α → Option γ} {g : β → Option γ} (h : Option.Rel R x b)
    (hf : ∀ a b, R a b → f a = g b) : x.bind f = b.bind g := by
  cases h with
  | some h => exact hf _ _ h
  | none => rfl

theorem any_eq_of_rel {f : α → Bool} {g : β → Bool} (h : Option.Rel R x b)
    (hf : ∀ a b, R a b → f a = g b) : x.any f = b.any g := by
  cases h with
  | some h => exact hf _ _ h
  | none => rfl

end Options

end QueryFilter
