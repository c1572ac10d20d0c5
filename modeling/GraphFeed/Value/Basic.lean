import GraphFeed.Number.Basic

/-!
# Values

A `Value` is what a settings file, a parameter of a statement or a record of an answer can hold.
Settings are kept as values, unchecked, because a settings file may put any value in any place;
`Value.isTrue`, `Value.compareInt` and `Value.index` are the three ways in which a setting is used
where another kind of value was expected, and they say what happens then.
-/

namespace GraphFeed

/-- A value of a settings file, of a parameter or of an answered record. -/
inductive Value
  | null
  | bool (b : Bool)
  | int (n : Int)
  | float (x : Binary64)
  | text (t : Text)
  | list (items : List Value)
  | mapping (entries : List (Value × Value))

/-- The parameters of a statement, by name and in order. -/
abbrev Parameters := List (Text × Value)

namespace Value

instance : Coe Text Value := ⟨Value.text⟩

/-- The value of a number. -/
def ofNumber : Number → Value
  | .int n => .int n
  | .float x => .float x

/-- The value is not `null`. -/
def isGiven : Value → Bool
  | .null => false
  | _ => true

/-- What a value counts as where a truth value is asked for: zero, the empty text, the empty list
    and the empty mapping are false, and so is `null`. -/
def isTrue : Value → Bool
  | .null => false
  | .bool b => b
  | .int n => n != 0
  | .float x => !x.isZero
  | .text t => !t.isEmpty
  | .list items => !items.isEmpty
  | .mapping entries => !entries.isEmpty

/-- The kinds of values. -/
inductive Kind
  | null | bool | int | float | text | list | mapping
deriving DecidableEq, Repr

/-- The kind of a value. -/
def kind : Value → Kind
  | .null => .null
  | .bool _ => .bool
  | .int _ => .int
  | .float _ => .float
  | .text _ => .text
  | .list _ => .list
  | .mapping _ => .mapping

/-- The name a message gives to a kind. -/
def Kind.name : Kind → String
  | .null => "NoneType"
  | .bool => "bool"
  | .int => "int"
  | .float => "float"
  | .text => "str"
  | .list => "list"
  | .mapping => "dict"

/-- The order of a number relative to a whole number; a truth value counts as 0 or 1. The kind of
    the value if it is no number, and `none` as order if it is not comparable. -/
def compareInt (v : Value) (n : Int) : Except Kind (Option Ordering) :=
  match v with
  | .bool b => .ok (some (compare (if b then 1 else 0) n))
  | .int m => .ok (some (compare m n))
  | .float x => .ok (x.compareInt? n)
  | v => .error v.kind

/-- What is greater than one is greater than zero. -/
theorem compareInt_zero_of_one {v : Value} (h : v.compareInt 1 = .ok (some .gt)) :
    v.compareInt 0 = .ok (some .gt) := by
  cases v with
  | bool b => cases b <;> cases h
  | int m =>
    rw [compareInt, Except.ok.injEq, Option.some.injEq, Int.compare_eq_gt] at h ⊢
    omega
  | float x =>
    rw [compareInt, Except.ok.injEq] at h ⊢
    exact Binary64.compareInt?_zero_of_one h
  | null | text | list | mapping => cases h

/-- The value as a whole number where a count is asked for; the kind of the value if it is none. -/
def index (v : Value) : Except Kind Int :=
  match v with
  | .bool b => .ok (if b then 1 else 0)
  | .int n => .ok n
  | v => .error v.kind

/-- The value is the number `n`. -/
def isInt (n : Int) (v : Value) : Bool :=
  match v.compareInt n with
  | .ok (some .eq) => true
  | _ => false

/-- Equality of keys of a mapping. A number is the same key in all its spellings, and the truth
    values are one and zero. Lists and mappings are no keys. -/
def sameKey (a b : Value) : Bool :=
  match a.index, b.index with
  | .ok n, _ => b.isInt n
  | .error _, .ok n => a.isInt n
  | .error _, .error _ =>
    match a, b with
    | .null, .null => true
    | .float x, .float y => x == y
    | .text s, .text t => s == t
    | _, _ => false

/-- Puts an entry into a mapping: a new key comes last, a key already there keeps its place. -/
def insertEntry (key value : Value) : List (Value × Value) → List (Value × Value)
  | [] => [(key, value)]
  | (k, v) :: rest =>
    if k.sameKey key then (k, value) :: rest else (k, v) :: insertEntry key value rest

/-- The value of a key of a mapping. -/
def entry? (key : Text) (entries : List (Value × Value)) : Option Value :=
  (entries.find? fun e => match e.1 with
    | .text t => t == key
    | _ => false).map (·.2)

/-- The parameters as a mapping. -/
def ofParameters (parameters : Parameters) : Value :=
  .mapping (parameters.map fun e => (.text e.1, e.2))

end Value

end GraphFeed
