import QueryFilter.Binary64.Basic

/-! # JSON values

Values with their fields in written order. A number is an integer of 64 bits or a binary64 number,
and the two kinds are never equal. Equality of values looks at fields by key, whatever their order.
-/

namespace QueryFilter

/-- An integer that a signed or an unsigned word of 64 bits holds. -/
structure WordInt where
  val : Int
  le_val : -0x8000000000000000 ≤ val
  val_lt : val < 0x10000000000000000
deriving DecidableEq

inductive Number where
  | integer (n : WordInt)
  | real (x : Binary64)
deriving DecidableEq

inductive Json where
  | null
  | bool (b : Bool)
  | number (n : Number)
  | string (s : String)
  | array (items : List Json)
  | object (fields : List (String × Json))
deriving Inhabited

namespace WordInt

def ofInt? (n : Int) : Option WordInt :=
  if h : -0x8000000000000000 ≤ n ∧ n < 0x10000000000000000 then some ⟨n, h.1, h.2⟩ else none

def ofInt64 (n : Int64) : WordInt where
  val := n.toInt
  le_val := n.le_toInt
  val_lt := Int.lt_trans n.toInt_lt (by decide)

def toInt64? (n : WordInt) : Option Int64 :=
  if n.val < 0x8000000000000000 then some (Int64.ofInt n.val) else none

@[simp] theorem val_ofInt64 (n : Int64) : (ofInt64 n).val = n.toInt := rfl

@[simp] theorem toInt64?_ofInt64 (n : Int64) : (ofInt64 n).toInt64? = some n := by
  simp [toInt64?, show n.toInt < 0x8000000000000000 from n.toInt_lt]

end WordInt

namespace Number

/-- Integers are equal as integers and reals as numbers; the kinds differ. -/
def same : Number → Number → Bool
  | .integer m, .integer n => decide (m = n)
  | .real x, .real y => x.same y
  | _, _ => false

@[simp] theorem same_refl (n : Number) : n.same n := by cases n <;> simp [same]

def toBinary64? : Number → Option Binary64
  | .integer n => Binary64.ofInt? n.val
  | .real x => some x

/-- Whole numbers of less than 63 bits are integers, all others stay reals. -/
def ofBinary64 (x : Binary64) : Number :=
  match x.toInt? with
  | some n =>
    if h : -0x8000000000000000 < n ∧ n < 0x8000000000000000 then
      .integer ⟨n, Int.le_of_lt h.1, Int.lt_trans h.2 (by decide)⟩
    else .real x
  | none => .real x

end Number

namespace Json

/-- The fields of an object in written order. -/
abbrev Fields := List (String × Json)

namespace Fields

def get? (fields : Fields) (key : String) : Option Json := fields.lookup key

def hasKey (fields : Fields) (key : String) : Bool := (fields.get? key).isSome

def keys (fields : Fields) : List String := fields.map Prod.fst

/-- A known key keeps its place and gets the value; a new one goes to the end. -/
def insert : Fields → String → Json → Fields
  | [], key, value => [(key, value)]
  | (k, v) :: rest, key, value =>
    if k = key then (k, value) :: rest else (k, v) :: insert rest key value

def insertAll (fields added : Fields) : Fields :=
  added.foldl (fun fields (key, value) => fields.insert key value) fields

@[simp] theorem get?_nil (key : String) : get? [] key = none := rfl

@[simp] theorem get?_cons_self (key : String) (value : Json) (rest : Fields) :
    get? ((key, value) :: rest) key = some value := by simp [get?]

theorem get?_cons_of_ne {k key : String} (h : k ≠ key) (v : Json) (rest : Fields) :
    get? ((k, v) :: rest) key = get? rest key := by
  simp [get?, List.lookup_cons, beq_false_of_ne (Ne.symm h)]

@[simp] theorem get?_insert_self (fields : Fields) (key : String) (value : Json) :
    (fields.insert key value).get? key = some value := by
  induction fields with
  | nil => simp [insert]
  | cons field rest ih =>
    obtain ⟨k, v⟩ := field
    by_cases h : k = key
    · subst h; simp [insert]
    · simp [insert, h, get?_cons_of_ne h, ih]

theorem get?_insert_of_ne {fields : Fields} {key other : String} (value : Json) (h : key ≠ other) :
    (fields.insert key value).get? other = fields.get? other := by
  induction fields with
  | nil => simp [insert, get?_cons_of_ne h]
  | cons field rest ih =>
    obtain ⟨k, v⟩ := field
    by_cases hk : k = key
    · subst hk; simp [insert, get?_cons_of_ne h]
    · by_cases ho : k = other
      · subst ho; simp [insert, hk]
      · simp [insert, hk, get?_cons_of_ne ho, ih]

end Fields

def get? : Json → String → Option Json
  | .object fields, key => Fields.get? fields key
  | _, _ => none

def isNull : Json → Bool
  | .null => true
  | _ => false

def asString? : Json → Option String
  | .string s => some s
  | _ => none

def asBool? : Json → Option Bool
  | .bool b => some b
  | _ => none

def asArray? : Json → Option (List Json)
  | .array items => some items
  | _ => none

def asObject? : Json → Option Fields
  | .object fields => some fields
  | _ => none

def asInt64? : Json → Option Int64
  | .number (.integer n) => n.toInt64?
  | _ => none

def ofInt64 (n : Int64) : Json := .number (.integer (.ofInt64 n))

def strings (items : List String) : Json := .array (items.map .string)

@[simp] theorem asInt64?_ofInt64 (n : Int64) : (ofInt64 n).asInt64? = some n := by
  simp [ofInt64, asInt64?]

mutual

/-- Equality of values: arrays item by item, objects key by key. -/
def same : Json → Json → Bool
  | .null, .null => true
  | .bool a, .bool b => a == b
  | .number m, .number n => m.same n
  | .string s, .string t => s == t
  | .array xs, .array ys => sameItems xs ys
  | .object xs, .object ys => xs.length == ys.length && sameFields xs ys
  | _, _ => false

def sameItems : List Json → List Json → Bool
  | [], [] => true
  | x :: xs, y :: ys => same x y && sameItems xs ys
  | _, _ => false

def sameFields : Fields → Fields → Bool
  | [], _ => true
  | (key, x) :: xs, ys =>
    (match ys.get? key with
      | some y => same x y
      | none => false) && sameFields xs ys

end

end Json

end QueryFilter
