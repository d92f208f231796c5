import QueryFilter.Filter.Basic
import QueryFilter.Json.Printer

/-! # Filters in words

The one-line text of a filter. Numbers are written in full, without an exponent.
-/

namespace QueryFilter

/-- Digits are written out, a whole number looks like an integer, and of two nearest decimals the
greater is taken. -/
def plainLayout : Layout := ⟨.up, none, false⟩

def Bound.describe (b : Bound) : String := b.operator.symbol ++ " " ++ b.value.text plainLayout

def describeOptional (word : String) : Option String → String
  | some text => " " ++ word ++ " " ++ text
  | none => ""

mutual

def Filter.describe : Filter → String
  | ⟨kind, settings⟩ => kind.describe settings

def Kind.describe : Kind → Settings → String
  | .members column names, settings =>
    let list := " [" ++ ", ".intercalate names ++ "]"
    if (⟨.members column names, settings⟩ : Filter).isIncludeAll then column.expression ++ " all"
    else if settings.excludeMembers then column.expression ++ " excludes" ++ list
    else column.expression ++ " in" ++ list
  | .text column operator operand, _ =>
    column.expression ++ " " ++ operator.key ++ " \"" ++ operand ++ "\""
  | .numeric target first second, _ =>
    target.describe ++ " " ++ " and ".intercalate ((first :: second.toList).map Bound.describe)
  | .dateRange column start finish, _ =>
    column.expression ++ describeOptional "from" start ++ describeOptional "to" finish
  | .relativeDate column period offset count anchor, _ =>
    column.expression ++ " " ++ period.key ++ " " ++ toString count.toInt ++ " offset " ++
      toString offset.toInt ++ describeOptional "from" anchor
  | .ranking column measure rank count, _ =>
    column.expression ++ " " ++ rank.key ++ " " ++ toString count.toInt ++ " by " ++
      (Target.measure measure).describe
  | .exclude inner, _ => "not (" ++ inner.describe ++ ")"
  | .logical _ connective filters, _ =>
    (" " ++ connective.key ++ " ").intercalate (describeParts filters)
  | .custom dimension condition, _ => dimension ++ " custom " ++ condition.compact

def describeParts : List Filter → List String
  | [] => []
  | f :: filters => ("(" ++ f.describe ++ ")") :: describeParts filters

end

end QueryFilter
