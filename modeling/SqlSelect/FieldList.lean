/-!
# Lists of columns

The columns that one call hands to a clause: a single name, a sequence of names, or a
tuple of such lists. Their names are appended to the clause from left to right.

## Main definitions

* `FieldList`, `FieldList.appendTo` and `FieldList.names`.
-/

namespace SqlSelect

/-- The columns that one call hands to a clause. -/
inductive FieldList where
  | one (name : String)
  | sequence (names : List String)
  | tuple (parts : List FieldList)

namespace FieldList

mutual

/-- Appends the names of a list, in order, to those that are already there. -/
def appendTo : FieldList → List String → List String
  | .one name, out => out ++ [name]
  | .sequence names, out => out ++ names
  | .tuple parts, out => appendAllTo parts out

/-- Appends the names of one list after another. -/
def appendAllTo : List FieldList → List String → List String
  | [], out => out
  | fields :: rest, out => appendAllTo rest (fields.appendTo out)

end

/-- All names of a list. -/
def names (fields : FieldList) : List String := fields.appendTo []

mutual

/-- What is already there stays in front. -/
theorem appendTo_append (fields : FieldList) (start out : List String) :
    fields.appendTo (start ++ out) = start ++ fields.appendTo out := by
  match fields with
  | .one name => simp [appendTo]
  | .sequence names => simp [appendTo]
  | .tuple parts => exact appendAllTo_append parts start out

theorem appendAllTo_append (parts : List FieldList) (start out : List String) :
    appendAllTo parts (start ++ out) = start ++ appendAllTo parts out := by
  match parts with
  | [] => rfl
  | fields :: rest =>
    rw [appendAllTo, appendTo_append fields, appendAllTo_append rest, appendAllTo]

end

/-- What a list appends does not depend on what is already there. -/
theorem appendTo_eq (fields : FieldList) (out : List String) :
    fields.appendTo out = out ++ fields.names := by
  rw [names, ← appendTo_append, List.append_nil]

end FieldList

end SqlSelect
