import SqlSelect.Number.Layout

/-!
# Document trees

What a stored document holds once its notation has been read: scalars, lists, and
tables whose members keep their order and may repeat.

## Main definitions

* `Tree`;
* `Tree.depth`: how deep lists and tables nest;
* `Tree.same`: equality of trees, which is decidable.
-/

namespace SqlSelect

/-- The content of a document. A tree is `unusable` if its notation admits it but
    nothing can be read from it, such as a number too large to be represented. -/
inductive Tree where
  | null
  | bool (b : Bool)
  | int (n : Int)
  | float (x : Double)
  | text (s : String)
  | list (items : List Tree)
  | table (members : List (String × Tree))
  | unusable

namespace Tree

mutual

/-- The number of lists and tables that nest inside each other. -/
def depth : Tree → Nat
  | .list items => 1 + depthList items
  | .table members => 1 + depthMembers members
  | _ => 0

/-- The greatest depth among the items of a list. -/
def depthList : List Tree → Nat
  | [] => 0
  | t :: rest => max t.depth (depthList rest)

/-- The greatest depth among the members of a table. -/
def depthMembers : List (String × Tree) → Nat
  | [] => 0
  | (_, t) :: rest => max t.depth (depthMembers rest)

end

def texts (ss : List String) : Tree := .list (ss.map .text)

/-! ### Comparing trees -/

mutual

/-- Two trees are the same, member by member. -/
def same : Tree → Tree → Bool
  | .null, .null => true
  | .bool a, .bool b => a == b
  | .int m, .int n => m == n
  | .float x, .float y => x == y
  | .text s, .text t => s == t
  | .list as, .list bs => sameList as bs
  | .table as, .table bs => sameMembers as bs
  | .unusable, .unusable => true
  | _, _ => false

def sameList : List Tree → List Tree → Bool
  | [], [] => true
  | a :: as, b :: bs => a.same b && sameList as bs
  | _, _ => false

def sameMembers : List (String × Tree) → List (String × Tree) → Bool
  | [], [] => true
  | (name, a) :: as, (name', b) :: bs => name == name' && a.same b && sameMembers as bs
  | _, _ => false

end

mutual

theorem same_iff (a b : Tree) : a.same b = true ↔ a = b := by
  match a with
  | .list as => cases b <;> simp [same, sameList_iff as]
  | .table as => cases b <;> simp [same, sameMembers_iff as]
  | .null | .bool _ | .int _ | .float _ | .text _ | .unusable => cases b <;> simp [same]

theorem sameList_iff (as bs : List Tree) : sameList as bs = true ↔ as = bs := by
  match as, bs with
  | [], [] | [], _ :: _ | _ :: _, [] => simp [sameList]
  | a :: as, b :: bs => simp [sameList, same_iff a b, sameList_iff as bs]

theorem sameMembers_iff (as bs : List (String × Tree)) : sameMembers as bs = true ↔ as = bs := by
  match as, bs with
  | [], [] | [], _ :: _ | _ :: _, [] => simp [sameMembers]
  | (name, a) :: as, (name', b) :: bs =>
    simp [sameMembers, same_iff a b, sameMembers_iff as bs, and_assoc]

end

instance : DecidableEq Tree := fun a b => decidable_of_iff _ (same_iff a b)

end Tree

end SqlSelect
