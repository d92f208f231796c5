import QueryFilter.Binary64.Basic

/-! # Operators

The comparisons of a condition and the keys that name them. A text operator is one of four tests or
its negation; an order operator compares numbers or dates.
-/

namespace QueryFilter

inductive TextTest where
  | startsWith
  | endsWith
  | contains
  | equals
deriving DecidableEq

structure TextOperator where
  test : TextTest
  negated : Bool
deriving DecidableEq

namespace TextOperator

def key : TextOperator → String
  | ⟨.startsWith, false⟩ => "startsWith"
  | ⟨.endsWith, false⟩ => "endsWith"
  | ⟨.contains, false⟩ => "contains"
  | ⟨.equals, false⟩ => "equals"
  | ⟨.startsWith, true⟩ => "doesntStartWith"
  | ⟨.endsWith, true⟩ => "doesntEndWith"
  | ⟨.contains, true⟩ => "doesntContain"
  | ⟨.equals, true⟩ => "doesntEqual"

def all : List TextOperator :=
  [⟨.startsWith, false⟩, ⟨.endsWith, false⟩, ⟨.contains, false⟩, ⟨.equals, false⟩,
   ⟨.startsWith, true⟩, ⟨.endsWith, true⟩, ⟨.contains, true⟩, ⟨.equals, true⟩]

def ofKey? (key : String) : Option TextOperator := all.find? fun o => o.key == key

def positive (o : TextOperator) : TextOperator := { o with negated := false }

@[simp] theorem ofKey?_key (o : TextOperator) : ofKey? o.key = some o := by
  obtain ⟨t, b⟩ := o
  cases t <;> cases b <;> decide

theorem key_of_ofKey? {key : String} {o : TextOperator} (h : ofKey? key = some o) :
    o.key = key := by
  simpa using List.find?_some h

end TextOperator

inductive Comparison where
  | equals
  | doesntEqual
  | atLeast
  | atMost
  | greater
  | less
deriving DecidableEq

namespace Comparison

def key : Comparison → String
  | .equals => "equals"
  | .doesntEqual => "doesntEqual"
  | .atLeast => "from"
  | .atMost => "to"
  | .greater => "fromNotEqual"
  | .less => "toNotEqual"

def symbol : Comparison → String
  | .equals => "=="
  | .doesntEqual => "!="
  | .atLeast => ">="
  | .atMost => "<="
  | .greater => ">"
  | .less => "<"

def all : List Comparison := [.equals, .doesntEqual, .atLeast, .atMost, .greater, .less]

def ofKey? (key : String) : Option Comparison := all.find? fun c => c.key == key

/-- Whether a value that stands in the given order to the operand passes. -/
def holds : Comparison → Ordering → Bool
  | .equals, o => o == .eq
  | .doesntEqual, o => o != .eq
  | .atLeast, o => o != .lt
  | .atMost, o => o != .gt
  | .greater, o => o == .gt
  | .less, o => o == .lt

@[simp] theorem ofKey?_key (c : Comparison) : ofKey? c.key = some c := by cases c <;> decide

theorem key_of_ofKey? {key : String} {c : Comparison} (h : ofKey? key = some c) : c.key = key := by
  simpa using List.find?_some h

end Comparison

/-- A comparison with a finite number. Infinities and what is no number, for which a condition would
hold null, are left out: no text or number that is read gives one. -/
structure Bound where
  operator : Comparison
  value : Binary64
deriving DecidableEq

def Bound.same (a b : Bound) : Bool := a.operator == b.operator && a.value.same b.value

/-- Which way a period extends from its anchor. -/
inductive Period where
  | last
  | next
deriving DecidableEq

def Period.key : Period → String
  | .last => "last"
  | .next => "next"

/-- Which end of a ranking is kept. -/
inductive Rank where
  | top
  | bottom
deriving DecidableEq

def Rank.key : Rank → String
  | .top => "top"
  | .bottom => "bottom"

inductive Connective where
  | and
  | or
deriving DecidableEq

def Connective.key : Connective → String
  | .and => "and"
  | .or => "or"

def Connective.word : Connective → String
  | .and => "AND"
  | .or => "OR"

end QueryFilter
