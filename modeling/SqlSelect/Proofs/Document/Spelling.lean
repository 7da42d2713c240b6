import SqlSelect.Proofs.Document.Decoding
import SqlSelect.Proofs.Document.Records

/-!
# Spellings of a query

A query can be written in more ways than the one that encoding chooses: in every record,
at any depth, the members may stand in any order, other members may stand between them,
and members at their defaults may be missing. All of these trees are decoded as the same
query.

## Main definitions

* `Expr.Spelled`, `Clauses.Spelled`, `Entity.Spelled` and `Query.Spelled`: the trees that
  spell a query and its parts.

## Main statements

* `Query.decode_of_spelled`: every spelling of a query is decoded as the query;
* `Query.spelled_encode`: the encoded query is one of them.
-/

namespace SqlSelect

open SqlSelect.Tree

/-! ### Spellings -/

/-- The trees that spell a predicate tree. Only records can be spelled in different ways;
    `extra` says whether they may have members of other names. -/
def Expr.Spelled (extra : Bool) : Expr → Tree → Prop
  | .literal v => (· = .variant "Literal" v.encode)
  | .field name => (· = .variant "Field" (.text name))
  | .computed v => (· = .variant "Computed" v.encode)
  | .unary e => fun t => ∃ operand, t = .variant "Unary" operand ∧ e.Spelled extra operand
  | .binary op l r => fun t => ∃ record, t = .variant "Binary" record ∧
      record.IsRecord extra [.required "op" (· = op.encode), .required "left" (l.Spelled extra),
        .required "right" (r.Spelled extra)]
  | .membership item collection => fun t => ∃ record, t = .variant "Membership" record ∧
      record.IsRecord extra [.required "item" (item.Spelled extra),
        .required "collection" (collection.Spelled extra)]
  | .lambda body => fun t => ∃ inner, t = .variant "Lambda" inner ∧ body.Spelled extra inner
  | .emptyLambda => (· = .variant "Lambda" .null)
  | .foreign kind => (· = .variant "Opaque" (.text kind))

/-- The trees that spell a list, item by item. -/
def Tree.IsList {α : Type} (spelled : α → Tree → Prop) (xs : List α) (t : Tree) : Prop :=
  ∃ ts, t = .list ts ∧ List.Forall₂ spelled xs ts

def Column.recordFields (c : Column) : List RecordField :=
  [.required "name" (· = .text c.name),
    ⟨"order", (· = .int c.order.toNat), c.order = 0⟩,
    ⟨"primary", (· = .bool c.primary), c.primary = false⟩]

def Column.Spelled (c : Column) : Tree → Prop := Tree.IsRecord true c.recordFields

def Entity.recordFields (e : Entity) : List RecordField :=
  [.required "table" (· = .text e.table),
    ⟨"columns", Tree.IsList Column.Spelled e.columns, e.columns = []⟩]

def Entity.Spelled (e : Entity) : Tree → Prop := Tree.IsRecord true e.recordFields

/-- The trees that spell a condition, which is null where there is none. -/
def PredicateSpelled (extra : Bool) : Option Expr → Tree → Prop
  | some p => p.Spelled extra
  | none => (· = .null)

/-- A list of names among clauses. -/
def Clauses.namesField (name : String) (names : List String) : RecordField :=
  ⟨name, (· = .texts names), names = []⟩

/-- A number of rows among clauses. -/
def Clauses.numberField (name : String) (n : UInt64) : RecordField :=
  ⟨name, (· = .int n.toNat), n = 0⟩

def Clauses.recordFields (extra : Bool) (c : Clauses) : List RecordField :=
  [⟨"predicate", PredicateSpelled extra c.predicate, c.predicate = none⟩,
    namesField "group_by" c.groupBy, namesField "order_by" c.orderBy,
    namesField "projection" c.projection, namesField "sum" c.sum, namesField "count" c.count,
    numberField "limit" c.limit, numberField "offset" c.offset]

def Clauses.Spelled (extra : Bool) (c : Clauses) : Tree → Prop :=
  Tree.IsRecord true (c.recordFields extra)

def Query.recordFields (extra : Bool) (q : Query) : List RecordField :=
  [.required "entity" q.entity.Spelled,
    ⟨"query", q.clauses.Spelled extra, q.clauses = {}⟩]

/-- The trees that spell a query: in each of its records the members stand in any order,
    with any members of other names between them, and without any of those that are at
    their defaults. The payloads of alternatives have other members only if `extra`. -/
def Query.Spelled (extra : Bool) (q : Query) : Tree → Prop :=
  Tree.IsRecord true (q.recordFields extra)

/-! ### Encoded parts without JSON between -/

mutual

theorem Value.asJson_encode (v : Value) (h : FiniteFloats v.scalars) :
    v.encode.asJson = v.encode := by
  match v with
  | .null => rfl
  | .bool b => exact asJson_variant _ _
  | .int n => rw [Value.encode, asJson_variant, asJson, Json.intTree_toInt]
  | .float x =>
    have hx : x.isFinite = true := h x (List.mem_singleton_self _)
    rw [Value.encode, asJson_variant, asJson, if_pos hx]
  | .decimal d => exact asJson_variant _ _
  | .text s => exact asJson_variant _ _
  | .dateTime t => exact asJson_variant _ _
  | .array items =>
    rw [Value.encode, asJson_variant, asJson, Value.asJsonList_encodeList items h]

theorem Value.asJsonList_encodeList (vs : List Value) (h : FiniteFloats (scalarsList vs)) :
    asJsonList (encodeList vs) = encodeList vs := by
  match vs with
  | [] => rfl
  | v :: rest =>
    rw [scalarsList, finiteFloats_append] at h
    rw [Value.encodeList, asJsonList, Value.asJson_encode v h.1,
      Value.asJsonList_encodeList rest h.2]

end

theorem Tree.asJson_texts (names : List String) : (texts names).asJson = texts names := by
  rw [texts, asJson, asJsonList_eq_map, List.map_map]
  rfl

variable {conventions : Conventions} {depth : Nat} {t : Tree}

/-- An encoded value is decoded wherever it fits. -/
theorem Value.decode_encode {v : Value} (hfloats : FiniteFloats v.scalars)
    (hdepth : v.encode.depth ≤ depth) : decode conventions depth v.encode = some v.asRead := by
  have hread := ((v.readAs_encode conventions).iff).2 ⟨⟨hfloats, hdepth⟩, rfl⟩
  rwa [v.asJson_encode hfloats] at hread

theorem Tree.texts?_texts {names : List String} (hdepth : 1 ≤ depth) :
    texts? depth (texts names) = some names := by
  have hread := ((readAs_texts names).iff).2 ⟨⟨trivial, (depth_texts names).le.trans hdepth⟩, rfl⟩
  rwa [asJson_texts] at hread

theorem Tree.nat?_int {n bound : Nat} (h : n < bound) : (Tree.int n).nat? bound = some n :=
  if_pos h

theorem Tree.depth_le_depthList {ts : List Tree} (h : t ∈ ts) : t.depth ≤ depthList ts := by
  induction ts with
  | nil => cases h
  | cons first rest ih =>
    rw [depthList]
    obtain rfl | h := List.mem_cons.1 h
    · exact Nat.le_max_left _ _
    · exact (ih h).trans (Nat.le_max_right _ _)

/-! ### Decoding spellings -/

theorem Expr.Spelled.exists_variant {extra : Bool} {e : Expr} (h : e.Spelled extra t) :
    ∃ name payload, t = .variant name payload := by
  cases e with
  | unary e => exact ⟨_, _, h.choose_spec.1⟩
  | binary op l r => exact ⟨_, _, h.choose_spec.1⟩
  | membership l r => exact ⟨_, _, h.choose_spec.1⟩
  | lambda e => exact ⟨_, _, h.choose_spec.1⟩
  | _ => exact ⟨_, _, h⟩

theorem Tree.exists_depth_of_variant {name : String} {payload : Tree}
    (h : (variant name payload).depth ≤ depth) : ∃ n, depth = n + 1 ∧ payload.depth ≤ n := by
  rw [depth_variant] at h
  exact ⟨depth - 1, by omega, by omega⟩

namespace Expr

theorem depth_encode_binary (op : Operator) (l r : Expr) :
    (binary op l r).encode.depth = 2 + max l.encode.depth r.encode.depth := by
  simp [encode, Tree.depth, depthMembers, Operator.encode]
  omega

theorem depth_encode_membership (l r : Expr) :
    (membership l r).encode.depth = 2 + max l.encode.depth r.encode.depth := by
  simp [encode, Tree.depth, depthMembers]
  omega

theorem exists_depth_of_pair {e l r : Expr}
    (h : e.encode.depth = 2 + max l.encode.depth r.encode.depth)
    (hdepth : e.encode.depth ≤ depth) :
    ∃ n, depth = n + 2 ∧ l.encode.depth ≤ n ∧ r.encode.depth ≤ n :=
  ⟨depth - 2, by omega, by omega, by omega⟩

theorem decode_binary_of_spelled {op : Operator} {l r left right : Expr} {record : Tree}
    (h : record.IsRecord conventions.extraMembers [.required "op" (· = op.encode),
      .required "left" (l.Spelled conventions.extraMembers),
      .required "right" (r.Spelled conventions.extraMembers)])
    (hl : ∀ t, l.Spelled conventions.extraMembers t → decode conventions depth t = some left)
    (hr : ∀ t, r.Spelled conventions.extraMembers t → decode conventions depth t = some right) :
    decode conventions (depth + 2) (.variant "Binary" record) = some (.binary op left right) := by
  obtain ⟨values, hvalues, hadmits⟩ := h.exists_payloadFields? conventions
    (by simp [RecordField.required])
  simp only [List.forall₂_cons_left_iff, List.forall₂_nil_left_iff,
    RecordField.admits_required] at hadmits
  obtain ⟨_, _, ⟨_, rfl, rfl⟩, ⟨_, _, ⟨tl, rfl, htl⟩, ⟨_, _, ⟨tr, rfl, htr⟩, rfl, rfl⟩, rfl⟩,
    rfl⟩ := hadmits
  have hfields : record.payloadFields? conventions ["op", "left", "right"] =
    some [some op.encode, some tl, some tr] := hvalues
  have hop : Operator.decode conventions depth op.encode = some op := by
    simp [Operator.encode, Operator.decode, Operator.ofName?_name]
  rw [Tree.variant, decode.eq_def]
  simp [hfields, hop, hl tl htl, hr tr htr]

theorem decode_membership_of_spelled {l r left right : Expr} {record : Tree}
    (h : record.IsRecord conventions.extraMembers [
      .required "item" (l.Spelled conventions.extraMembers),
      .required "collection" (r.Spelled conventions.extraMembers)])
    (hl : ∀ t, l.Spelled conventions.extraMembers t → decode conventions depth t = some left)
    (hr : ∀ t, r.Spelled conventions.extraMembers t → decode conventions depth t = some right) :
    decode conventions (depth + 2) (.variant "Membership" record) =
      some (.membership left right) := by
  obtain ⟨values, hvalues, hadmits⟩ := h.exists_payloadFields? conventions
    (by simp [RecordField.required])
  simp only [List.forall₂_cons_left_iff, List.forall₂_nil_left_iff,
    RecordField.admits_required] at hadmits
  obtain ⟨_, _, ⟨tl, rfl, htl⟩, ⟨_, _, ⟨tr, rfl, htr⟩, rfl, rfl⟩, rfl⟩ := hadmits
  have hfields : record.payloadFields? conventions ["item", "collection"] =
    some [some tl, some tr] := hvalues
  rw [Tree.variant, decode.eq_def]
  simp [hfields, hl tl htl, hr tr htr]

/-- Every spelling of a predicate tree is decoded as the tree, wherever its encoding
    fits. -/
theorem decode_of_spelled {e : Expr} (h : e.Spelled conventions.extraMembers t)
    (hfloats : FiniteFloats e.scalars) (hdepth : e.encode.depth ≤ depth) :
    decode conventions depth t = some e.asRead := by
  induction e generalizing t depth with
  | literal v =>
    obtain ⟨n, rfl, hn⟩ := exists_depth_of_variant hdepth
    rw [scalars_literal] at hfloats
    have hv : Value.decode conventions n v.encode = some v.asRead :=
      Value.decode_encode hfloats hn
    rw [h]
    exact congrArg (Option.map Expr.literal) hv
  | computed v =>
    obtain ⟨n, rfl, hn⟩ := exists_depth_of_variant hdepth
    rw [scalars_computed] at hfloats
    have hv : Value.decode conventions n v.encode = some v.asRead :=
      Value.decode_encode hfloats hn
    rw [h]
    exact congrArg (Option.map Expr.computed) hv
  | field name =>
    obtain ⟨n, rfl, -⟩ := exists_depth_of_variant hdepth
    rw [h]
    rfl
  | foreign kind =>
    obtain ⟨n, rfl, -⟩ := exists_depth_of_variant hdepth
    rw [h]
    rfl
  | emptyLambda =>
    obtain ⟨n, rfl, -⟩ := exists_depth_of_variant hdepth
    rw [h]
    rfl
  | unary e ih =>
    obtain ⟨n, rfl, hn⟩ := exists_depth_of_variant hdepth
    obtain ⟨operand, rfl, hoperand⟩ := h
    exact congrArg (Option.map Expr.unary) (ih hoperand hfloats hn)
  | lambda e ih =>
    obtain ⟨n, rfl, hn⟩ := exists_depth_of_variant hdepth
    obtain ⟨inner, rfl, hinner⟩ := h
    have hbody := ih hinner hfloats hn
    -- A tree is never null, which would stand for no body.
    obtain ⟨name, payload, rfl⟩ := hinner.exists_variant
    exact congrArg (Option.map Expr.lambda) hbody
  | binary op l r ihl ihr =>
    obtain ⟨n, rfl, hl, hr⟩ := exists_depth_of_pair (depth_encode_binary op l r) hdepth
    obtain ⟨record, rfl, hrecord⟩ := h
    rw [scalars_binary, finiteFloats_append] at hfloats
    exact decode_binary_of_spelled hrecord (fun _ ht => ihl ht hfloats.1 hl)
      fun _ ht => ihr ht hfloats.2 hr
  | membership l r ihl ihr =>
    obtain ⟨n, rfl, hl, hr⟩ := exists_depth_of_pair (depth_encode_membership l r) hdepth
    obtain ⟨record, rfl, hrecord⟩ := h
    rw [scalars_membership, finiteFloats_append] at hfloats
    exact decode_membership_of_spelled hrecord (fun _ ht => ihl ht hfloats.1 hl)
      fun _ ht => ihr ht hfloats.2 hr

end Expr

/-! ### Decoding the spellings of queries -/

theorem Column.decode_of_spelled {c : Column} (h : c.Spelled t) (hdepth : 1 ≤ depth) :
    decode conventions depth t = some c := by
  obtain ⟨n, rfl⟩ := Nat.exists_eq_add_one_of_ne_zero (Nat.ne_zero_of_lt hdepth)
  obtain ⟨values, hvalues, hadmits⟩ := IsRecord.exists_fields? conventions h
    (by simp [recordFields, RecordField.required])
  simp only [recordFields, List.forall₂_cons_left_iff, List.forall₂_nil_left_iff,
    RecordField.admits_required] at hadmits
  obtain ⟨_, _, ⟨_, rfl, rfl⟩, ⟨order, _, horder, ⟨primary, _, hprimary, rfl, rfl⟩, rfl⟩, rfl⟩ :=
    hadmits
  have hfields : t.fields? conventions ["name", "order", "primary"] =
    some [some (.text c.name), order, primary] := hvalues
  have horderRead : fieldOr 0 (fun t => (t.nat? UInt32.size).map UInt32.ofNat) order =
      some c.order := by
    refine fieldOr_of_admits horder ?_ Eq.symm
    rintro t rfl
    rw [nat?_int c.order.toNat_lt, Option.map_some, UInt32.ofNat_toNat]
  have hprimaryRead : fieldOr false bool? primary = some c.primary := by
    refine fieldOr_of_admits hprimary ?_ Eq.symm
    rintro t rfl
    rfl
  simp only [decode, hfields, horderRead, hprimaryRead, text?, Option.bind_eq_bind,
    Option.bind_some]

/-- A list is read item by item. -/
theorem Tree.list?_of_isList {α : Type} {spelled : α → Tree → Prop} {read : Nat → Tree → Option α}
    {xs : List α} (h : IsList spelled xs t)
    (hread : ∀ x ∈ xs, ∀ t, spelled x t → read depth t = some x) :
    list? read (depth + 1) t = some xs := by
  obtain ⟨ts, rfl, hts⟩ := h
  rw [list?]
  induction hts with
  | nil => rfl
  | cons hx _ ih =>
    obtain ⟨hfirst, hrest⟩ := List.forall_mem_cons.1 hread
    simp [hfirst _ hx, ih hrest]

theorem Entity.decode_of_spelled {e : Entity} (h : e.Spelled t)
    (hdepth : e.encode.depth ≤ depth) : decode conventions depth t = some e := by
  rw [depth_encode] at hdepth
  obtain ⟨n, rfl⟩ : ∃ n, depth = n + 1 := ⟨depth - 1, by omega⟩
  obtain ⟨values, hvalues, hadmits⟩ := IsRecord.exists_fields? conventions h
    (by simp [recordFields, RecordField.required])
  simp only [recordFields, List.forall₂_cons_left_iff, List.forall₂_nil_left_iff,
    RecordField.admits_required] at hadmits
  obtain ⟨_, _, ⟨_, rfl, rfl⟩, ⟨columns, _, hcolumns, rfl, rfl⟩, rfl⟩ := hadmits
  have hfields : t.fields? conventions ["table", "columns"] =
    some [some (.text e.table), columns] := hvalues
  have hcolumnsRead : fieldOr [] (Tree.list? (Column.decode conventions) n) columns =
      some e.columns := by
    refine fieldOr_of_admits hcolumns ?_ Eq.symm
    intro t ht
    have hlist : (Tree.list (e.columns.map Column.encode)).depth ≤ n := by omega
    obtain ⟨m, rfl⟩ : ∃ m, n = m + 1 := ⟨n - 1, by rw [Tree.depth] at hlist; omega⟩
    refine list?_of_isList ht ?_
    intro c hc t hspelled
    -- The list has a column, so there is a level left for it.
    have hone : 1 ≤ depthList (e.columns.map Column.encode) :=
      c.depth_encode ▸ depth_le_depthList (List.mem_map_of_mem hc)
    rw [Tree.depth] at hlist
    exact Column.decode_of_spelled hspelled (by omega)
  simp only [decode, hfields, hcolumnsRead, text?, Option.bind_eq_bind, Option.bind_some]

theorem decodePredicate_of_spelled {predicate : Option Expr}
    (h : PredicateSpelled conventions.extraMembers predicate t)
    (hfloats : FiniteFloats (predicate.toList.flatMap Expr.scalars))
    (hdepth : (encodePredicate predicate).depth ≤ depth) :
    decodePredicate conventions depth t = some (predicate.map Expr.asRead) := by
  cases predicate with
  | none =>
    rw [h]
    rfl
  | some p =>
    rw [Option.toList_some, List.flatMap_singleton] at hfloats
    have hp := Expr.decode_of_spelled h hfloats hdepth
    obtain ⟨name, payload, rfl⟩ := Expr.Spelled.exists_variant h
    exact congrArg (Option.map some) hp

namespace Clauses

theorem names_of_admits {name : String} {names : List String} {value : Option Tree}
    (h : (namesField name names).Admits value) (hdepth : 1 ≤ depth) :
    fieldOr [] (Tree.texts? depth) value = some names := by
  refine fieldOr_of_admits h ?_ Eq.symm
  rintro t rfl
  exact texts?_texts hdepth

theorem number_of_admits {name : String} {n : UInt64} {value : Option Tree}
    (h : (numberField name n).Admits value) :
    fieldOr 0 (fun t => (t.nat? UInt64.size).map UInt64.ofNat) value = some n := by
  refine fieldOr_of_admits h ?_ Eq.symm
  rintro t rfl
  rw [nat?_int n.toNat_lt, Option.map_some, UInt64.ofNat_toNat]

theorem decode_of_spelled {c : Clauses} (h : c.Spelled conventions.extraMembers t)
    (hfloats : FiniteFloats c.scalars) (hdepth : c.encode.depth ≤ depth) :
    decode conventions depth t = some c.asRead := by
  rw [depth_encode] at hdepth
  obtain ⟨n, rfl⟩ : ∃ n, depth = n + 1 := ⟨depth - 1, by omega⟩
  have hn : 1 ≤ n := by omega
  obtain ⟨values, hvalues, hadmits⟩ := IsRecord.exists_fields? conventions h
    (by simp [recordFields, namesField, numberField])
  simp only [recordFields, List.forall₂_cons_left_iff, List.forall₂_nil_left_iff] at hadmits
  obtain ⟨predicate, _, hpredicate, ⟨groupBy, _, hgroupBy, ⟨orderBy, _, horderBy, ⟨projection, _,
    hprojection, ⟨sum, _, hsum, ⟨count, _, hcount, ⟨limit, _, hlimit, ⟨offset, _, hoffset, rfl,
    rfl⟩, rfl⟩, rfl⟩, rfl⟩, rfl⟩, rfl⟩, rfl⟩, rfl⟩ := hadmits
  have hfields : t.fields? conventions ["predicate", "group_by", "order_by", "projection",
    "sum", "count", "limit", "offset"] =
      some [predicate, groupBy, orderBy, projection, sum, count, limit, offset] := hvalues
  have hpredicateRead : fieldOr none (decodePredicate conventions n) predicate =
      some (c.predicate.map Expr.asRead) := by
    refine fieldOr_of_admits hpredicate ?_ ?_
    · intro t ht
      exact decodePredicate_of_spelled ht hfloats (by omega)
    · intro hnone
      rw [hnone]
      rfl
  simp only [decode, hfields, hpredicateRead, names_of_admits hgroupBy hn,
    names_of_admits horderBy hn, names_of_admits hprojection hn, names_of_admits hsum hn,
    names_of_admits hcount hn, number_of_admits hlimit, number_of_admits hoffset,
    Option.bind_eq_bind, Option.bind_some]
  rfl

end Clauses

/-- Every spelling of a query is decoded as the query, apart from the sign of zero decimals,
    wherever its encoding fits. -/
theorem Query.decode_of_spelled {q : Query} (h : q.Spelled conventions.extraMembers t)
    (hfloats : FiniteFloats q.scalars) (hdepth : q.encode.depth ≤ depth) :
    decode conventions depth t = some q.asRead := by
  rw [depth_encode] at hdepth
  obtain ⟨n, rfl⟩ : ∃ n, depth = n + 1 := ⟨depth - 1, by omega⟩
  obtain ⟨values, hvalues, hadmits⟩ := IsRecord.exists_fields? conventions h
    (by simp [recordFields, RecordField.required])
  simp only [recordFields, List.forall₂_cons_left_iff, List.forall₂_nil_left_iff,
    RecordField.admits_required] at hadmits
  obtain ⟨_, _, ⟨entity, rfl, hentity⟩, ⟨clauses, _, hclauses, rfl, rfl⟩, rfl⟩ := hadmits
  have hfields : t.fields? conventions ["entity", "query"] = some [some entity, clauses] :=
    hvalues
  have hentityRead : Entity.decode conventions n entity = some q.entity :=
    Entity.decode_of_spelled hentity (by omega)
  have hclausesRead : fieldOr {} (Clauses.decode conventions n) clauses =
      some q.clauses.asRead := by
    refine fieldOr_of_admits hclauses ?_ ?_
    · intro t ht
      exact Clauses.decode_of_spelled ht hfloats (by omega)
    · intro hdefault
      rw [hdefault]
      rfl
  simp only [decode, hfields, hentityRead, hclausesRead, Option.bind_eq_bind, Option.bind_some]
  rfl

/-! ### The encoding is a spelling -/

theorem Expr.spelled_encode (extra : Bool) (e : Expr) : e.Spelled extra e.encode := by
  induction e with
  | unary e ih => exact ⟨_, rfl, ih⟩
  | lambda e ih => exact ⟨_, rfl, ih⟩
  | binary op l r ihl ihr => exact ⟨_, rfl, .of_all (.keep rfl (.keep ihl (.keep ihr .nil)))⟩
  | membership l r ihl ihr => exact ⟨_, rfl, .of_all (.keep ihl (.keep ihr .nil))⟩
  | _ => rfl

theorem Column.spelled_encode (c : Column) : c.Spelled c.encode :=
  .of_all (.keep rfl (.keep rfl (.keep rfl .nil)))

theorem Entity.spelled_encode (e : Entity) : e.Spelled e.encode := by
  have hcolumns : Tree.IsList Column.Spelled e.columns (.list (e.columns.map Column.encode)) := by
    refine ⟨_, rfl, ?_⟩
    rw [List.forall₂_map_right_iff, List.forall₂_same]
    exact fun c _ => c.spelled_encode
  exact .of_all (.keep rfl (.keep hcolumns .nil))

theorem predicateSpelled_encodePredicate (extra : Bool) (predicate : Option Expr) :
    PredicateSpelled extra predicate (encodePredicate predicate) := by
  cases predicate with
  | none => rfl
  | some p => exact p.spelled_encode extra

theorem Clauses.spelled_encode (extra : Bool) (c : Clauses) : c.Spelled extra c.encode :=
  .of_all (.keep (predicateSpelled_encodePredicate extra c.predicate)
    (.keep rfl (.keep rfl (.keep rfl (.keep rfl (.keep rfl (.keep rfl (.keep rfl .nil))))))))

/-- What a query is encoded as is one of its spellings. -/
theorem Query.spelled_encode (extra : Bool) (q : Query) : q.Spelled extra q.encode :=
  .of_all (.keep q.entity.spelled_encode (.keep (q.clauses.spelled_encode extra) .nil))

end SqlSelect
