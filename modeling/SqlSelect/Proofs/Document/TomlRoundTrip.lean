import SqlSelect.Proofs.Document.RoundTrip
import SqlSelect.Proofs.Document.TomlLayouts
import SqlSelect.Proofs.Predicate.Operands

/-!
# Reading stored queries from TOML

A query can be written as TOML with the same names as in JSON: records and alternatives are
tables, in braces or under headers, and a missing condition is left out because TOML has
no null. Every such text is read as the query, like its JSON document.

## Main definitions

* `Query.toToml`: a query as TOML in any layout.

## Main statements

* `Query.ofToml?_toToml`: what is written as TOML and as JSON is read as the same.
-/

namespace SqlSelect

open SqlSelect.Tree
open Toml (Writable WritableItems WritableMembers IsBare)

/-! ### Writing queries -/

/-- The clauses without a condition where there is none. -/
def Clauses.tomlMembers (c : Clauses) : List (String × Tree) :=
  match c.predicate with
  | some _ => c.members
  | none => c.members.tail

namespace Query

def tomlMembers (q : Query) : List (String × Tree) :=
  [("entity", q.entity.encode), ("query", .table q.clauses.tomlMembers)]

/-- Writes a query as TOML, with the tables under headers that a layout says. -/
def toToml (layout : Toml.Layout) (q : Query) : String := Toml.print layout q.tomlMembers

end Query

/-! ### Empty lambdas -/

namespace Expr

/-- One of the nodes of a tree is an empty lambda. -/
def hasEmptyLambda : Expr → Bool
  | .emptyLambda => true
  | .unary e | .lambda e => e.hasEmptyLambda
  | .binary _ left right => left.hasEmptyLambda || right.hasEmptyLambda
  | .membership item collection => item.hasEmptyLambda || collection.hasEmptyLambda
  | _ => false

theorem nodeOf_emptyLambda_iff {e : Expr} : NodeOf .emptyLambda e ↔ e.hasEmptyLambda = true := by
  induction e with
  | unary e ih | lambda e ih => rw [NodeOf.iff_exists_child]; simp [children, hasEmptyLambda, ih]
  | binary op l r ihl ihr | membership l r ihl ihr =>
    rw [NodeOf.iff_exists_child]
    simp [children, hasEmptyLambda, ihl, ihr]
  | _ => rw [NodeOf.iff_exists_child]; simp [children, hasEmptyLambda]

end Expr

/-! ### What can be written -/

theorem Tree.writable_variant {name : String} (hname : IsBare name) {payload : Tree}
    (h : Writable payload) : Writable (.variant name payload) :=
  ⟨List.nodup_singleton name, ⟨hname, h⟩, trivial⟩

theorem Toml.writableItems_iff {items : List Tree} :
    WritableItems items ↔ ∀ t ∈ items, Writable t := by
  induction items with
  | nil => simp [WritableItems]
  | cons t items ih => rw [WritableItems, ih, List.forall_mem_cons]

theorem Tree.writable_natCast {n : Nat} (h : n < 2 ^ 63) : Writable (.int n) :=
  Int64.toInt_ofInt_of_le (by omega) (by omega)

theorem Tree.writable_texts (names : List String) : Writable (texts names) := by
  refine Toml.writableItems_iff.2 ?_
  rw [List.forall_mem_map]
  exact fun _ _ => trivial

mutual

theorem Value.writable_encode (v : Value) (h : FiniteFloats v.scalars) : Writable v.encode := by
  match v with
  | .null => trivial
  | .bool _ | .decimal _ | .text _ | .dateTime _ => exact writable_variant (by decide) trivial
  | .int n => exact writable_variant (by decide) (congrArg Int64.toInt (Int64.ofInt_toInt n))
  | .float x => exact writable_variant (by decide) (h x (List.mem_singleton_self _))
  | .array items => exact writable_variant (by decide) (Value.writableItems_encodeList items h)

theorem Value.writableItems_encodeList (vs : List Value) (h : FiniteFloats (scalarsList vs)) :
    WritableItems (encodeList vs) := by
  match vs with
  | [] => trivial
  | v :: rest =>
    rw [scalarsList, finiteFloats_append] at h
    exact ⟨v.writable_encode h.1, Value.writableItems_encodeList rest h.2⟩

end

/-- A tree is written if it has no empty lambda, which is encoded with a null. -/
theorem Expr.writable_encode {e : Expr} (hfloats : FiniteFloats e.scalars)
    (hlambda : e.hasEmptyLambda = false) : Writable e.encode := by
  induction e with
  | literal v =>
    rw [scalars_literal] at hfloats
    exact writable_variant (by decide) (v.writable_encode hfloats)
  | computed v =>
    rw [scalars_computed] at hfloats
    exact writable_variant (by decide) (v.writable_encode hfloats)
  | field _ | foreign _ => exact writable_variant (by decide) trivial
  | emptyLambda => cases hlambda
  | unary e ih | lambda e ih => exact writable_variant (by decide) (ih hfloats hlambda)
  | binary op l r ihl ihr =>
    rw [scalars_binary, finiteFloats_append] at hfloats
    obtain ⟨hl, hr⟩ := Bool.or_eq_false_iff.1 hlambda
    refine writable_variant (by decide) ⟨by simp, ?_⟩
    exact ⟨⟨by decide, trivial⟩, ⟨by decide, ihl hfloats.1 hl⟩, ⟨by decide, ihr hfloats.2 hr⟩,
      trivial⟩
  | membership l r ihl ihr =>
    rw [scalars_membership, finiteFloats_append] at hfloats
    obtain ⟨hl, hr⟩ := Bool.or_eq_false_iff.1 hlambda
    refine writable_variant (by decide) ⟨by simp, ?_⟩
    exact ⟨⟨by decide, ihl hfloats.1 hl⟩, ⟨by decide, ihr hfloats.2 hr⟩, trivial⟩

theorem Column.writable_encode (c : Column) : Writable c.encode := by
  have horder : c.order.toNat < 2 ^ 63 := c.order.toNat_lt.trans (by decide)
  refine ⟨by simp, ?_⟩
  exact ⟨⟨by decide, trivial⟩, ⟨by decide, writable_natCast horder⟩, ⟨by decide, trivial⟩, trivial⟩

theorem Entity.writable_encode (e : Entity) : Writable e.encode := by
  have hcolumns : WritableItems (e.columns.map Column.encode) := by
    rw [Toml.writableItems_iff, List.forall_mem_map]
    exact fun c _ => c.writable_encode
  exact ⟨by simp, ⟨by decide, trivial⟩, ⟨by decide, hcolumns⟩, trivial⟩

/-- Clauses are written if their numbers are no larger than integers are in TOML. -/
theorem Clauses.writable_tomlMembers {c : Clauses} (hfloats : FiniteFloats c.scalars)
    (hlambda : ∀ p, c.predicate = some p → ¬Expr.NodeOf .emptyLambda p)
    (hlimit : c.limit.toNat < 2 ^ 63) (hoffset : c.offset.toNat < 2 ^ 63) :
    Writable (.table c.tomlMembers) := by
  have hrest : WritableMembers c.members.tail :=
    ⟨⟨by decide, writable_texts _⟩, ⟨by decide, writable_texts _⟩, ⟨by decide, writable_texts _⟩,
      ⟨by decide, writable_texts _⟩, ⟨by decide, writable_texts _⟩,
      ⟨by decide, writable_natCast hlimit⟩, ⟨by decide, writable_natCast hoffset⟩, trivial⟩
  rw [tomlMembers]
  split
  case h_1 p hp =>
    have hpredicate : Writable (encodePredicate c.predicate) := by
      rw [scalars, hp, Option.toList_some, List.flatMap_singleton] at hfloats
      rw [hp]
      have hfull := hlambda p hp
      rw [Expr.nodeOf_emptyLambda_iff, Bool.not_eq_true] at hfull
      exact Expr.writable_encode hfloats hfull
    exact ⟨by simp [members], ⟨by decide, hpredicate⟩, hrest⟩
  case h_2 => exact ⟨by simp [members], hrest⟩

theorem Query.writable_tomlMembers {q : Query} (hfloats : FiniteFloats q.scalars)
    (hlambda : ∀ p, q.clauses.predicate = some p → ¬Expr.NodeOf .emptyLambda p)
    (hlimit : q.clauses.limit.toNat < 2 ^ 63) (hoffset : q.clauses.offset.toNat < 2 ^ 63) :
    Writable (.table q.tomlMembers) :=
  ⟨by simp [tomlMembers], ⟨by decide, q.entity.writable_encode⟩,
    ⟨by decide, Clauses.writable_tomlMembers hfloats hlambda hlimit hoffset⟩, trivial⟩

/-! ### What is written -/

theorem Clauses.depth_tomlMembers (c : Clauses) :
    (Tree.table c.tomlMembers).depth = c.encode.depth := by
  rw [tomlMembers]
  split
  case h_1 => rfl
  case h_2 hnone =>
    have hnull : (encodePredicate c.predicate).depth = 0 := by rw [hnone]; rfl
    have hmembers : depthMembers c.members =
      max (encodePredicate c.predicate).depth (depthMembers c.members.tail) := rfl
    rw [encode_eq_table, Tree.depth, Tree.depth, hmembers, hnull, Nat.zero_max]

theorem Query.depth_tomlMembers (q : Query) :
    (Tree.table q.tomlMembers).depth = q.encode.depth := by
  have hmembers : depthMembers q.tomlMembers =
    max q.entity.encode.depth (max (Tree.table q.clauses.tomlMembers).depth 0) := rfl
  rw [Tree.depth, hmembers, q.clauses.depth_tomlMembers]
  rfl

theorem Clauses.spelled_tomlMembers (extra : Bool) (c : Clauses) :
    c.Spelled extra (.table c.tomlMembers) := by
  rw [tomlMembers]
  split
  case h_1 => exact c.spelled_encode extra
  case h_2 hnone =>
    exact .of_all (.leaveOut hnone (.keep rfl (.keep rfl (.keep rfl (.keep rfl (.keep rfl
      (.keep rfl (.keep rfl .nil))))))))

/-- What is written of a query in TOML is one of its spellings. -/
theorem Query.spelled_tomlMembers (extra : Bool) (q : Query) :
    q.Spelled extra (.table q.tomlMembers) :=
  .of_all (.keep q.entity.spelled_encode (.keep (q.clauses.spelled_tomlMembers extra) .nil))

namespace Query

/-- A query that is written as TOML in any layout is read as itself, and so is its JSON
    document: its doubles are finite, none of its decimals is a negative zero, it has no
    empty lambda, its numbers of rows fit into 63 bits and it nests at most 60 levels. -/
theorem ofToml?_toToml (layout : Toml.Layout) {q : Query} (hfloats : FiniteFloats q.scalars)
    (hzeros : UnsignedZeros q.scalars)
    (hlambda : ∀ p, q.clauses.predicate = some p → ¬Expr.NodeOf .emptyLambda p)
    (hlimit : q.clauses.limit.toNat ≤ 2 ^ 63 - 1) (hoffset : q.clauses.offset.toNat ≤ 2 ^ 63 - 1)
    (hdepth : q.encode.depth ≤ 60) :
    ofToml? (q.toToml layout) = some q ∧ ofJson? q.toJson = some q ∧ q.equal q = true ∧
      ∀ options, (ofToml? (q.toToml layout)).map (render · options) =
        (ofJson? q.toJson).map (render · options) := by
  have hread : q.asRead = q := asRead_eq_self hzeros
  have hwritable : Writable (.table q.tomlMembers) :=
    writable_tomlMembers hfloats hlambda (Nat.lt_of_le_pred (by decide) hlimit)
      (Nat.lt_of_le_pred (by decide) hoffset)
  have hlevels : depthMembers q.tomlMembers ≤ Toml.nestingLimit := by
    have hsame := q.depth_tomlMembers
    have hsixty : 60 ≤ Toml.nestingLimit := by decide
    rw [Tree.depth] at hsame
    omega
  let t := (Toml.treeNode layout (.table q.tomlMembers)).tree
  have hspelled : q.Spelled Toml.conventions.extraMembers t :=
    q.layoutFree_spelled _ layout (.table q.tomlMembers) rfl (q.spelled_tomlMembers _)
  have hsame : t.depth = q.encode.depth :=
    (Toml.depth_tree_treeNode layout (.table q.tomlMembers) rfl).trans q.depth_tomlMembers
  have htoml : ofToml? (q.toToml layout) = some q := by
    rw [ofToml?, Toml.decode?, toToml, Toml.read?_print layout hwritable hlevels,
      Option.bind_some]
    exact (decode_of_spelled hspelled hfloats hsame.ge).trans (congrArg some hread)
  have hjson : ofJson? q.toJson = some q :=
    ofJson?_toJson.2 ⟨⟨hfloats, hdepth.trans (by decide)⟩, hread⟩
  have hequal : q.equal q = true := by
    have h := equal_asRead hfloats
    rwa [hread] at h
  exact ⟨htoml, hjson, hequal, fun _ => by rw [htoml, hjson]⟩

example : toToml (fun path => path.length ≤ 1) {
    entity := { table := "T" }
    clauses := { predicate := some (.field "Paid"), orderBy := ["Id"], limit := 5 } } =
  "[entity]\ntable = \"T\"\ncolumns = []\n[query]\npredicate = \x7b Field = \"Paid\" \x7d\n" ++
    "group_by = []\norder_by = [\"Id\"]\nprojection = []\nsum = []\ncount = []\nlimit = 5\n" ++
    "offset = 0\n" := by decide +kernel

/-- A query with values and nodes of most kinds, in which a text needs escapes and a
    collection holds lists and an alternative without payload. -/
def shipments : Query where
  entity := { table := "Shipments", columns := [⟨"Id", 1, true⟩, ⟨"Weight", 0, false⟩] }
  clauses := {
    predicate := some (.or
      (.lambda (.unary ((Expr.field "Weight").gt
        (.literal (.float (.finite false 7205759403792794 1018 (by decide)))))))
      (.and (.isIn (.foreign "Call") (.sequence [.int (-9223372036854775808), .null,
          .array [.text "line\nback\\slash \"\u0001\"", .bool true], .array []]))
        (.ne (.computed (.decimal ⟨true, 31415926, 7, by decide, by decide⟩))
          (.literal (.dateTime ⟨2024, 2, 29, 12, 30, 45, 600, by decide, by decide⟩)))))
    orderBy := ["Id"]
    limit := 9223372036854775807
    offset := 20 }

/-- Headers for tables down to the third level. -/
def upperHeaders : Toml.Layout := fun path => path.length ≤ 3

theorem ofToml?_toToml_shipments :
    (FiniteFloats shipments.scalars ∧ UnsignedZeros shipments.scalars ∧
      (∀ p, shipments.clauses.predicate = some p → ¬Expr.NodeOf .emptyLambda p) ∧
      shipments.clauses.limit.toNat ≤ 2 ^ 63 - 1 ∧ shipments.clauses.offset.toNat ≤ 2 ^ 63 - 1 ∧
      shipments.encode.depth ≤ 60) ∧
    ofToml? (shipments.toToml upperHeaders) = some shipments ∧
      ofJson? shipments.toJson = some shipments ∧ shipments.equal shipments = true ∧
      ∀ options, (ofToml? (shipments.toToml upperHeaders)).map (render · options) =
        (ofJson? shipments.toJson).map (render · options) := by
  have hscalars : shipments.scalars = [.float (.finite false 7205759403792794 1018 (by decide)),
      .int (-9223372036854775808), .null, .text "line\nback\\slash \"\u0001\"", .bool true,
      .decimal ⟨true, 31415926, 7, by decide, by decide⟩,
      .dateTime ⟨2024, 2, 29, 12, 30, 45, 600, by decide, by decide⟩] := rfl
  have hfloats : FiniteFloats shipments.scalars := by
    simp [hscalars, FiniteFloats, Double.isFinite]
  have hzeros : UnsignedZeros shipments.scalars := by simp [hscalars, UnsignedZeros]
  have hlambda : ∀ p, shipments.clauses.predicate = some p → ¬Expr.NodeOf .emptyLambda p := by
    rintro _ ⟨⟩
    rw [Expr.nodeOf_emptyLambda_iff]
    decide
  have hlimit : shipments.clauses.limit.toNat ≤ 2 ^ 63 - 1 := by decide
  have hoffset : shipments.clauses.offset.toNat ≤ 2 ^ 63 - 1 := by decide
  have hdepth : shipments.encode.depth ≤ 60 := by decide
  exact ⟨⟨hfloats, hzeros, hlambda, hlimit, hoffset, hdepth⟩,
    ofToml?_toToml upperHeaders hfloats hzeros hlambda hlimit hoffset hdepth⟩

end Query

end SqlSelect
