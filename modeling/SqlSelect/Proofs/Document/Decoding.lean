import SqlSelect.Proofs.Calendar.IsoText
import SqlSelect.Proofs.Document.EncodedTree
import SqlSelect.Proofs.Value.Scalars

/-!
# Decoding encoded queries

A query that is encoded, written as JSON and read again is decoded as itself, apart from
the minus sign of a zero decimal. It is decoded unless a double in it has become null,
and only where the decoder may enter as many lists and tables as nest in it.

## Main statements

* `Value.readAs_encode`, `Expr.readAs_encode` and `Query.readAs_encode`: what an encoded
  value, tree or query is decoded as, and when it is.
-/

namespace SqlSelect

open SqlSelect.Tree

variable (conventions : Conventions)

/-! ### Values -/

namespace Value

theorem encodeList_eq_map (vs : List Value) : encodeList vs = vs.map encode := by
  induction vs with
  | nil => rfl
  | cons v vs ih => rw [encodeList, ih, List.map_cons]

theorem readAs_int (n : Int64) : ReadAs (fun _ => int64?) (.int n.toInt) True n := by
  refine .scalar rfl ?_
  rw [asJson, Json.intTree_toInt]
  simp [int64?]

theorem readAs_float (x : Double) :
    ReadAs (fun _ => double?) (.float x) (x.isFinite = true) x := by
  intro depth y
  by_cases hx : x.isFinite = true
  · have hjson : (Tree.float x).asJson = .float x := if_pos hx
    simp [hjson, double?, hx, Tree.depth]
  · -- A double that is not finite has become null, which is no double.
    have hjson : (Tree.float x).asJson = .null := if_neg hx
    simp [hjson, double?, hx]

theorem readAs_decimal (d : Decimal) :
    ReadAs (fun _ => decimal?) (.text (String.ofList d.text)) True d.asRead := by
  refine .scalar rfl ?_
  have hread : decimal? (.text (String.ofList d.text)) =
      Decimal.ofText? (String.ofList d.text).toList := rfl
  rw [asJson_text, hread, String.toList_ofList, Decimal.ofText?_text]

theorem readAs_dateTime (t : DateTime) :
    ReadAs (fun _ => dateTime?) (.text (String.ofList t.isoText)) True t := by
  refine .scalar rfl ?_
  have hread : dateTime? (.text (String.ofList t.isoText)) =
      DateTime.ofText? (String.ofList t.isoText).toList := rfl
  rw [asJson_text, hread, String.toList_ofList, DateTime.ofText?_isoText]

mutual

/-- An encoded value is decoded in exactly the depth that it has, and only if no double
    in it has become null. -/
theorem readAs_encode (v : Value) :
    ReadAs (decode conventions) v.encode (FiniteFloats v.scalars) v.asRead := by
  match v with
  | .null =>
    intro depth w
    simp [encode, Tree.asJson, decode, scalars, FiniteFloats, Tree.depth, asRead]
  | .bool b =>
    have hread : ReadAs (fun _ => bool?) (.bool b) True b := .scalar rfl rfl
    refine .congr (.variant Value.bool hread rfl fun _ => rfl) ?_
    simp [scalars, FiniteFloats]
  | .int n =>
    refine .congr (.variant Value.int (readAs_int n) rfl fun _ => rfl) ?_
    simp [scalars, FiniteFloats]
  | .float x =>
    refine .congr (.variant Value.float (readAs_float x) rfl fun _ => rfl) ?_
    simp [scalars, FiniteFloats]
  | .decimal d =>
    refine .congr (.variant Value.decimal (readAs_decimal d) rfl fun _ => rfl) ?_
    simp [scalars, FiniteFloats]
  | .text s =>
    refine .congr (.variant Value.text (readAs_text s) rfl fun _ => rfl) ?_
    simp [scalars, FiniteFloats]
  | .dateTime t =>
    refine .congr (.variant Value.dateTime (readAs_dateTime t) rfl fun _ => rfl) ?_
    simp [scalars, FiniteFloats]
  | .array items =>
    have hlist := ReadAs.list (readAs_encodeList items)
    rw [encode, encodeList_eq_map, scalars, asRead, asReadList_eq_map, finiteFloats_scalarsList]
    refine .variant Value.array hlist rfl fun n => ?_
    cases n <;> rfl

theorem readAs_encodeList (vs : List Value) : ∀ v ∈ vs,
    ReadAs (decode conventions) v.encode (FiniteFloats v.scalars) v.asRead := by
  match vs with
  | [] => exact fun v hv => nomatch hv
  | v :: rest => exact List.forall_mem_cons.2 ⟨readAs_encode v, readAs_encodeList rest⟩

end

end Value

/-! ### Predicate trees -/

namespace Expr

variable {e' : Expr} {depth : Nat}

theorem decode_binary {op : Operator} {l r : Tree} :
    decode conventions depth (.variant "Binary"
        (.table [("op", op.encode), ("left", l), ("right", r)])) = some e' ↔
      ∃ n left right, depth = n + 2 ∧ decode conventions n l = some left ∧
        decode conventions n r = some right ∧ .binary op left right = e' := by
  have hfields : (Tree.table [("op", op.encode), ("left", l), ("right", r)]).payloadFields?
      conventions ["op", "left", "right"] = some [some op.encode, some l, some r] :=
    payloadFields?_table conventions [("op", _), ("left", l), ("right", r)] (by simp)
  have hop : ∀ n, Operator.decode conventions n op.encode = some op := fun n => by
    simp [Operator.encode, Operator.decode, Operator.ofName?_name]
  match depth with
  | 0 | 1 => simp [Tree.variant, decode]
  | n + 2 =>
    rw [Tree.variant, decode.eq_def]
    simp [hfields, hop, Option.bind_eq_some_iff]

theorem decode_membership {l r : Tree} :
    decode conventions depth (.variant "Membership"
        (.table [("item", l), ("collection", r)])) = some e' ↔
      ∃ n left right, depth = n + 2 ∧ decode conventions n l = some left ∧
        decode conventions n r = some right ∧ .membership left right = e' := by
  have hfields : (Tree.table [("item", l), ("collection", r)]).payloadFields?
      conventions ["item", "collection"] = some [some l, some r] :=
    payloadFields?_table conventions [("item", l), ("collection", r)] (by simp)
  match depth with
  | 0 | 1 => simp [Tree.variant, decode]
  | n + 2 =>
    rw [Tree.variant, decode.eq_def]
    simp [hfields, Option.bind_eq_some_iff]

/-- An alternative with a record of two trees needs two levels more than the deeper one. -/
theorem readAs_pair {t tl tr : Tree} {pl pr : Prop} {l r : Expr} (pair : Expr → Expr → Expr)
    (hl : ReadAs (decode conventions) tl pl l) (hr : ReadAs (decode conventions) tr pr r)
    (hdepth : t.depth = 2 + max tl.depth tr.depth)
    (hstep : ∀ depth e', decode conventions depth t.asJson = some e' ↔
      ∃ n left right, depth = n + 2 ∧ decode conventions n tl.asJson = some left ∧
        decode conventions n tr.asJson = some right ∧ pair left right = e') :
    ReadAs (decode conventions) t (pl ∧ pr) (pair l r) := by
  intro depth e'
  simp only [hstep, hl.iff, hr.iff, hdepth]
  constructor
  · rintro ⟨n, _, _, rfl, ⟨⟨hpl, hdl⟩, rfl⟩, ⟨⟨hpr, hdr⟩, rfl⟩, rfl⟩
    exact ⟨⟨⟨hpl, hpr⟩, by omega⟩, rfl⟩
  · rintro ⟨⟨⟨hpl, hpr⟩, hd⟩, rfl⟩
    obtain ⟨n, rfl⟩ : ∃ n, depth = n + 2 := ⟨depth - 2, by omega⟩
    exact ⟨n, _, _, rfl, ⟨⟨hpl, by omega⟩, rfl⟩, ⟨⟨hpr, by omega⟩, rfl⟩, rfl⟩

theorem exists_encode_eq_variant (e : Expr) :
    ∃ name payload, e.encode = .variant name payload := by
  cases e <;> exact ⟨_, _, rfl⟩

/-- An encoded tree is decoded in exactly the depth that it has, and only if no double
    in it has become null. -/
theorem readAs_encode (e : Expr) :
    ReadAs (decode conventions) e.encode (FiniteFloats e.scalars) e.asRead := by
  induction e with
  | literal v =>
    rw [scalars_literal]
    exact .variant Expr.literal (v.readAs_encode conventions) rfl fun _ => rfl
  | computed v =>
    rw [scalars_computed]
    exact .variant Expr.computed (v.readAs_encode conventions) rfl fun _ => rfl
  | unary e ih => exact .variant Expr.unary ih rfl fun _ => rfl
  | lambda e ih =>
    refine .variant Expr.lambda ih rfl fun n => ?_
    -- A tree is never null, which would stand for no body.
    obtain ⟨name, payload, h⟩ := e.exists_encode_eq_variant
    rw [h, asJson_variant]
    rfl
  | field name =>
    refine .congr (.variant Expr.field (readAs_text name) rfl fun _ => rfl) ?_
    simp [scalars, values, FiniteFloats]
  | foreign kind =>
    refine .congr (.variant Expr.foreign (readAs_text kind) rfl fun _ => rfl) ?_
    simp [scalars, values, FiniteFloats]
  | emptyLambda =>
    have hread : ReadAs (fun _ _ => some ()) .null True () := .scalar rfl rfl
    refine .congr (.variant (fun _ => Expr.emptyLambda) hread rfl fun _ => rfl) ?_
    simp [scalars, values, FiniteFloats]
  | binary op l r ihl ihr =>
    rw [scalars_binary, finiteFloats_append]
    refine readAs_pair conventions (.binary op) ihl ihr ?_ fun _ _ => decode_binary conventions
    simp [encode, Tree.depth, depthMembers, Operator.encode]
    omega
  | membership l r ihl ihr =>
    rw [scalars_membership, finiteFloats_append]
    refine readAs_pair conventions .membership ihl ihr ?_ fun _ _ => decode_membership conventions
    simp [encode, Tree.depth, depthMembers]
    omega

end Expr

/-! ### Queries -/

theorem fieldOr_order (n : UInt32) :
    fieldOr 0 (fun t => (t.nat? UInt32.size).map UInt32.ofNat)
      (some (Tree.int n.toNat).asJson) = some n := by
  have hlt : n.toNat < UInt32.size := n.toNat_lt
  rw [fieldOr, nat?_asJson hlt (by decide), Option.map_some, UInt32.ofNat_toNat]

theorem fieldOr_number (n : UInt64) :
    fieldOr 0 (fun t => (t.nat? UInt64.size).map UInt64.ofNat)
      (some (Tree.int n.toNat).asJson) = some n := by
  have hlt : n.toNat < UInt64.size := n.toNat_lt
  rw [fieldOr, nat?_asJson hlt (Nat.le_refl _), Option.map_some, UInt64.ofNat_toNat]

theorem Column.depth_encode (c : Column) : c.encode.depth = 1 := by
  simp [encode, Tree.depth, depthMembers]

theorem Column.readAs_encode (c : Column) : ReadAs (decode conventions) c.encode True c := by
  have hfields : c.encode.asJson.fields? conventions ["name", "order", "primary"] =
      some [some (.text c.name), some (Tree.int c.order.toNat).asJson,
        some (.bool c.primary)] :=
    fields?_asJson conventions [("name", .text c.name), ("order", .int c.order.toNat),
      ("primary", .bool c.primary)] (by simp)
  intro depth c'
  cases depth with
  | zero => simp [decode, depth_encode]
  | succ n =>
    rw [decode, hfields, depth_encode]
    simp only [fieldOr_order]
    simp [fieldOr, text?, bool?]

theorem Entity.depth_encode (e : Entity) :
    e.encode.depth = 1 + (Tree.list (e.columns.map Column.encode)).depth := by
  simp [encode, Tree.depth, depthMembers]

theorem Entity.readAs_encode (e : Entity) : ReadAs (decode conventions) e.encode True e := by
  have hfields : e.encode.asJson.fields? conventions ["table", "columns"] =
      some [some (.text e.table), some (Tree.list (e.columns.map Column.encode)).asJson] :=
    fields?_asJson conventions [("table", .text e.table),
      ("columns", .list (e.columns.map Column.encode))] (by simp)
  have hcolumns : ReadAs (list? (Column.decode conventions))
      (.list (e.columns.map Column.encode)) (∀ c ∈ e.columns, True) (e.columns.map id) :=
    .list fun c _ => c.readAs_encode conventions
  rw [List.map_id] at hcolumns
  intro depth e'
  cases depth with
  | zero => simp [decode, depth_encode]
  | succ n =>
    simp only [decode, hfields, depth_encode, fieldOr, text?, hcolumns.iff, Nat.add_comm 1,
      Nat.add_le_add_iff_right, Option.bind_eq_bind, Option.bind_some, Option.bind_eq_some_iff]
    constructor
    · rintro ⟨_, ⟨⟨-, hn⟩, rfl⟩, heq⟩
      exact ⟨⟨trivial, hn⟩, Option.some.inj heq⟩
    · rintro ⟨⟨-, hn⟩, rfl⟩
      exact ⟨_, ⟨⟨fun _ _ => trivial, hn⟩, rfl⟩, rfl⟩

/-- The member for a condition, which is null where there is none. -/
def encodePredicate : Option Expr → Tree
  | some p => p.encode
  | none => .null

theorem readAs_encodePredicate (predicate : Option Expr) :
    ReadAs (decodePredicate conventions) (encodePredicate predicate)
      (FiniteFloats (predicate.toList.flatMap Expr.scalars)) (predicate.map Expr.asRead) := by
  intro depth predicate'
  cases predicate with
  | none => simp [encodePredicate, decodePredicate, asJson, Tree.depth, FiniteFloats]
  | some p =>
    have hdecode : decodePredicate conventions depth p.encode.asJson =
        (Expr.decode conventions depth p.encode.asJson).map some := by
      obtain ⟨name, payload, h⟩ := p.exists_encode_eq_variant
      rw [h, asJson_variant]
      rfl
    simp only [encodePredicate, hdecode, Option.map_eq_some_iff,
      (p.readAs_encode conventions).iff, Option.toList_some, List.flatMap_singleton,
      Option.map_some]
    constructor
    · rintro ⟨_, ⟨h, rfl⟩, rfl⟩
      exact ⟨h, rfl⟩
    · rintro ⟨h, rfl⟩
      exact ⟨_, ⟨h, rfl⟩, rfl⟩

/-- The members of encoded clauses. -/
def Clauses.members (c : Clauses) : List (String × Tree) :=
  [("predicate", encodePredicate c.predicate), ("group_by", .texts c.groupBy),
    ("order_by", .texts c.orderBy), ("projection", .texts c.projection), ("sum", .texts c.sum),
    ("count", .texts c.count), ("limit", .int c.limit.toNat), ("offset", .int c.offset.toNat)]

theorem Clauses.encode_eq_table (c : Clauses) : c.encode = .table c.members := rfl

theorem Clauses.depth_encode (c : Clauses) :
    c.encode.depth = 1 + max (encodePredicate c.predicate).depth 1 := by
  simp [encode_eq_table, members, Tree.depth, depthMembers, depth_texts]

theorem Clauses.readAs_encode (c : Clauses) :
    ReadAs (decode conventions) c.encode (FiniteFloats c.scalars) c.asRead := by
  have hfields : c.encode.asJson.fields? conventions ["predicate", "group_by", "order_by",
      "projection", "sum", "count", "limit", "offset"] =
      some (c.members.map fun m => some m.2.asJson) :=
    fields?_asJson conventions c.members (by simp [members])
  have hpredicate := readAs_encodePredicate conventions c.predicate
  have htexts : ∀ n ss ss', texts? n (texts ss).asJson = some ss' ↔ 1 ≤ n ∧ ss = ss' := by
    intro n ss ss'
    rw [(readAs_texts ss).iff, depth_texts, true_and]
  intro depth c'
  cases depth with
  | zero => simp [decode, depth_encode]
  | succ n =>
    rw [decode, hfields, depth_encode]
    simp only [members, List.map_cons, List.map_nil, fieldOr_number]
    simp only [fieldOr, hpredicate.iff, htexts, Nat.add_comm 1, Nat.add_le_add_iff_right,
      Nat.max_le, Option.bind_eq_bind, Option.bind_some, Option.bind_eq_some_iff]
    constructor
    · rintro ⟨_, ⟨⟨hfloats, hp⟩, rfl⟩, _, ⟨hn, rfl⟩, _, ⟨-, rfl⟩, _, ⟨-, rfl⟩, _, ⟨-, rfl⟩, _,
        ⟨-, rfl⟩, heq⟩
      exact ⟨⟨hfloats, hp, hn⟩, Option.some.inj heq⟩
    · rintro ⟨⟨hfloats, hp, hn⟩, rfl⟩
      exact ⟨_, ⟨⟨hfloats, hp⟩, rfl⟩, _, ⟨hn, rfl⟩, _, ⟨hn, rfl⟩, _, ⟨hn, rfl⟩, _, ⟨hn, rfl⟩, _,
        ⟨hn, rfl⟩, rfl⟩

theorem Query.depth_encode (q : Query) :
    q.encode.depth = 1 + max q.entity.encode.depth q.clauses.encode.depth := by
  simp [encode, Tree.depth, depthMembers]

/-- An encoded query is decoded in exactly the depth that it has, and only if no double
    in it has become null. -/
theorem Query.readAs_encode (q : Query) :
    ReadAs (decode conventions) q.encode (FiniteFloats q.scalars) q.asRead := by
  have hfields : q.encode.asJson.fields? conventions ["entity", "query"] =
      some [some q.entity.encode.asJson, some q.clauses.encode.asJson] :=
    fields?_asJson conventions [("entity", q.entity.encode), ("query", q.clauses.encode)]
      (by simp)
  have hentity := q.entity.readAs_encode conventions
  have hclauses := q.clauses.readAs_encode conventions
  intro depth q'
  cases depth with
  | zero => simp [decode, depth_encode]
  | succ n =>
    simp only [decode, hfields, depth_encode, fieldOr, hentity.iff, hclauses.iff,
      Nat.add_comm 1, Nat.add_le_add_iff_right, Nat.max_le, Option.bind_eq_bind,
      Option.bind_eq_some_iff]
    constructor
    · rintro ⟨_, ⟨⟨-, he⟩, rfl⟩, _, ⟨⟨hfloats, hc⟩, rfl⟩, heq⟩
      exact ⟨⟨hfloats, he, hc⟩, Option.some.inj heq⟩
    · rintro ⟨⟨hfloats, he, hc⟩, rfl⟩
      exact ⟨_, ⟨⟨trivial, he⟩, rfl⟩, _, ⟨⟨hfloats, hc⟩, rfl⟩, rfl⟩

end SqlSelect
