import QueryFilter.Filter.Basic

/-! # Equality of filters

Two filters are the same if all of their parts are, where columns count by expression, numbers by
value and objects by their fields in any order.
-/

namespace QueryFilter

def sameOption {α : Type} (same : α → α → Bool) : Option α → Option α → Bool
  | none, none => true
  | some x, some y => same x y
  | _, _ => false

mutual

def Filter.same : Filter → Filter → Bool
  | ⟨kind, settings⟩, ⟨kind', settings'⟩ => kind.same kind' && settings.same settings'
termination_by structural x => x

def Kind.same : Kind → Kind → Bool
  | .members c names, .members c' names' => c.same c' && names == names'
  | .text c operator operand, .text c' operator' operand' =>
    c.same c' && operator == operator' && operand == operand'
  | .numeric t first second, .numeric t' first' second' =>
    t.same t' && first.same first' && sameOption Bound.same second second'
  | .dateRange c start finish, .dateRange c' start' finish' =>
    c.same c' && start == start' && finish == finish'
  | .relativeDate c period offset count anchor, .relativeDate c' period' offset' count' anchor' =>
    c.same c' && period == period' && offset == offset' && count == count' && anchor == anchor'
  | .ranking c measure rank count, .ranking c' measure' rank' count' =>
    c.same c' && measure.same measure' && rank == rank' && count == count'
  | .exclude inner, .exclude inner' => inner.same inner'
  | .logical t connective filters, .logical t' connective' filters' =>
    t.same t' && connective == connective' && sameFilters filters filters'
  | .custom dimension condition, .custom dimension' condition' =>
    dimension == dimension' && condition.same condition'
  | _, _ => false
termination_by structural x => x

def Settings.same : Settings → Settings → Bool
  | ⟨guid, disabled, locked, background, excludeMembers, multiSelection, deactivated, source⟩, s =>
    guid == s.guid && disabled == s.disabled && locked == s.locked &&
      sameBackground background s.background && excludeMembers == s.excludeMembers &&
      multiSelection == s.multiSelection && deactivated == s.deactivated &&
      sameOption Json.same source s.source
termination_by structural x => x

def sameFilters : List Filter → List Filter → Bool
  | [], [] => true
  | f :: filters, g :: filters' => f.same g && sameFilters filters filters'
  | _, _ => false
termination_by structural x => x

def sameBackground : Option Filter → Option Filter → Bool
  | none, none => true
  | some f, some g => f.same g
  | _, _ => false
termination_by structural x => x

end

end QueryFilter
