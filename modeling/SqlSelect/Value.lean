import SqlSelect.Number.Decimal
import SqlSelect.Number.Layout
import SqlSelect.Calendar.DateTime

/-!
# Literal values

The values that a query can mention, and the text they have in SQL.

## Main definitions

* `Value`, with sequences nested to any depth;
* `Value.sql`: the literal text;
* `Value.equal`: numeric equality for floating-point numbers and decimals,
  structural equality for the rest.

## Design notes

Literals are inlined. A text is put between quotes as it is and nothing in it is
escaped, and a sequence is the list of its items with commas and no brackets, so
that it can stand inside an `IN (…)`.
-/

namespace SqlSelect

/-- A value in a query. -/
inductive Value where
  | null
  | bool (b : Bool)
  | int (n : Int64)
  | float (x : Double)
  | decimal (d : Decimal)
  | text (s : String)
  | dateTime (t : DateTime)
  | array (items : List Value)

namespace Value

def isSequence : Value → Bool
  | .array _ => true
  | _ => false

/-- Floating-point numbers in SQL never have an exponent, and a whole number has
    no point. -/
def floatLayout : FloatLayout where
  tie := .up
  positional := none
  wholeMark := []
  plusSign := []
  nan := ['N', 'a', 'N']
  infinity := some ['i', 'n', 'f']

mutual

def sql : Value → String
  | .null => "NULL"
  | .bool b => if b then "true" else "false"
  | .int n => String.ofList (Digits.ofInt n.toInt)
  | .float x => String.ofList (x.text floatLayout)
  | .decimal d => String.ofList d.text
  | .text s => "'" ++ s ++ "'"
  | .dateTime t => "'" ++ String.ofList t.sqlText ++ "'"
  | .array items => sqlList items

def sqlList : List Value → String
  | [] => ""
  | [v] => v.sql
  | v :: w :: rest => v.sql ++ "," ++ sqlList (w :: rest)

end

mutual

/-- Equality of values: a NaN equals nothing, the two zeros are equal, and
    decimals are compared as numbers. -/
def equal : Value → Value → Bool
  | .null, .null => true
  | .bool a, .bool b => a == b
  | .int a, .int b => a == b
  | .float a, .float b => a.equal b
  | .decimal a, .decimal b => a.equal b
  | .text a, .text b => a == b
  | .dateTime a, .dateTime b => a == b
  | .array a, .array b => equalList a b
  | _, _ => false

def equalList : List Value → List Value → Bool
  | [], [] => true
  | a :: as, b :: bs => a.equal b && equalList as bs
  | _, _ => false

end

theorem sqlList_eq_intercalate (items : List Value) :
    sqlList items = String.intercalate "," (items.map sql) := by
  induction items with
  | nil => rfl
  | cons v rest ih =>
    cases rest with
    | nil => simp [sqlList]
    | cons w rest => simp [sqlList, ih, String.append_assoc]

end Value

end SqlSelect
