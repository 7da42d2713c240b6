import SqlSelect.Proofs.Document.Decoding

/-!
# What decoding returns

Whatever spelling a tree uses, what is decoded from it is plain: its doubles are numbers
that stand in the tree, and the tree that it would be encoded in nests no deeper than the
decoder was allowed to go.

## Main definitions

* `Tree.doubles`: the numbers of a tree, as doubles;
* `DecodedFrom`: what is known of everything that is decoded.

## Main statements

* `Value.decodedFrom` and `Expr.decodedFrom`: decoded values and trees;
* `Query.decodedFrom`: the same of a decoded query.
-/

namespace SqlSelect

/-! ### The numbers of a tree -/

namespace Tree

mutual

/-- The numbers of a tree, as doubles. -/
def doubles : Tree → List Double
  | .int n => [Double.ofInt n]
  | .float x => [x]
  | .list items => doublesList items
  | .table members => doublesMembers members
  | _ => []

def doublesList : List Tree → List Double
  | [] => []
  | t :: rest => t.doubles ++ doublesList rest

def doublesMembers : List (String × Tree) → List Double
  | [] => []
  | (_, t) :: rest => t.doubles ++ doublesMembers rest

end

theorem doubles_subset_list {ts : List Tree} {t : Tree} (h : t ∈ ts) :
    t.doubles ⊆ (list ts).doubles := by
  rw [doubles]
  induction ts with
  | nil => cases h
  | cons first rest ih =>
    rw [doublesList]
    obtain rfl | h := List.mem_cons.1 h
    · exact List.subset_append_left _ _
    · exact List.subset_append_of_subset_right _ (ih h)

theorem doubles_subset_table {ms : List (String × Tree)} {name : String} {t : Tree}
    (h : (name, t) ∈ ms) : t.doubles ⊆ (table ms).doubles := by
  rw [doubles]
  induction ms with
  | nil => cases h
  | cons first rest ih =>
    rw [doublesMembers]
    obtain rfl | h := List.mem_cons.1 h
    · exact List.subset_append_left _ _
    · exact List.subset_append_of_subset_right _ (ih h)

theorem mem_of_lookup {ms : List (String × Tree)} {name : String} {t : Tree}
    (h : ms.lookup name = some t) : (name, t) ∈ ms := by
  induction ms with
  | nil => cases h
  | cons first rest ih =>
    rw [List.lookup_cons] at h
    split at h
    case h_1 hname =>
      obtain rfl := Option.some.inj h
      obtain rfl : name = first.1 := by simpa using hname
      exact List.mem_cons_self
    case h_2 => exact List.mem_cons_of_mem _ (ih h)

variable {conventions : Conventions} {names : List String} {t field : Tree}
  {fields : List (Option Tree)}

/-- The fields of a record are members or items of it. -/
theorem doubles_subset_of_fields? (h : t.fields? conventions names = some fields)
    (hfield : some field ∈ fields) : field.doubles ⊆ t.doubles := by
  rw [fields?.eq_def] at h
  split at h
  case h_1 members =>
    split at h
    case isTrue =>
      obtain rfl := Option.some.inj h
      obtain ⟨name, -, hname⟩ := List.mem_map.1 hfield
      exact doubles_subset_table (mem_of_lookup hname)
    case isFalse => cases h
  case h_2 items =>
    split at h
    case isTrue =>
      obtain rfl := Option.some.inj h
      obtain ⟨i, -, hi⟩ := List.mem_map.1 hfield
      exact doubles_subset_list (List.mem_of_getElem? hi)
    case isFalse => cases h
  case h_3 => cases h

theorem doubles_subset_of_payloadFields?
    (h : t.payloadFields? conventions names = some fields) (hfield : some field ∈ fields) :
    field.doubles ⊆ t.doubles := by
  rw [payloadFields?] at h
  split at h
  · cases h
  · exact doubles_subset_of_fields? h hfield

end Tree

/-! ### What is decoded -/

/-- Scalars that are decoded from a tree within a depth, together with the tree that they
    would be encoded in. -/
structure DecodedFrom (t : Tree) (depth : Nat) (scalars : List Value) (encoded : Tree) :
    Prop where
  floats : ∀ x, .float x ∈ scalars → x ∈ t.doubles
  depth_le : encoded.depth ≤ depth

namespace DecodedFrom

variable {t : Tree} {depth : Nat} {scalars more : List Value} {encoded : Tree}

/-- A scalar in an alternative. -/
theorem scalar {name : String} {payload : Tree} {v : Value}
    (hdepth : payload.depth = 0) (hfloat : ∀ x, v = .float x → x ∈ t.doubles) :
    DecodedFrom t (depth + 1) [v] (.variant name payload) where
  floats x hx := hfloat x (List.mem_singleton.1 hx).symm
  depth_le := by
    rw [Tree.depth_variant, hdepth]
    omega

/-- An alternative without scalars. -/
theorem plain {name : String} {payload : Tree} (hdepth : payload.depth = 0) :
    DecodedFrom t (depth + 1) [] (.variant name payload) where
  floats x hx := nomatch hx
  depth_le := by
    rw [Tree.depth_variant, hdepth]
    omega

/-- An alternative is one level deeper than its payload. -/
theorem variant {name name' : String} {payload : Tree}
    (h : DecodedFrom payload depth scalars encoded) :
    DecodedFrom (.table [(name, payload)]) (depth + 1) scalars (.variant name' encoded) where
  floats x hx := Tree.doubles_subset_table (List.mem_singleton_self _) (h.floats x hx)
  depth_le := by
    have := h.depth_le
    rw [Tree.depth_variant]
    omega

/-- What is decoded from a part of a tree. -/
theorem mono {part : Tree} (h : DecodedFrom part depth scalars encoded)
    (hpart : part.doubles ⊆ t.doubles) : DecodedFrom t depth scalars encoded where
  floats x hx := hpart (h.floats x hx)
  depth_le := h.depth_le

/-- A record of two parts is one level deeper than the deeper of them. -/
theorem pair {encoded' record : Tree} (h : DecodedFrom t depth scalars encoded)
    (h' : DecodedFrom t depth more encoded')
    (hrecord : record.depth = 1 + max encoded.depth encoded'.depth) :
    DecodedFrom t (depth + 1) (scalars ++ more) record where
  floats x hx := (List.mem_append.1 hx).elim (h.floats x) (h'.floats x)
  depth_le := by
    have := h.depth_le
    have := h'.depth_le
    omega

end DecodedFrom

variable {conventions : Conventions}

/-! ### Values -/

namespace Value

theorem float_mem_doubles {payload : Tree} {x : Double} (h : payload.double? = some x) :
    x ∈ payload.doubles := by
  cases payload with
  | int n =>
    obtain rfl := Option.some.inj h
    exact List.mem_singleton_self _
  | float y =>
    obtain rfl := Option.some.inj h
    exact List.mem_singleton_self _
  | _ => cases h

/-- What is decoded from the items of a list. -/
theorem decodedFrom_items {depth : Nat} {ts : List Tree} {vs : List Value}
    (hitem : ∀ t v, decode conventions depth t = some v →
      DecodedFrom t depth v.scalars v.encode)
    (h : ts.mapM (decode conventions depth) = some vs) :
    DecodedFrom (.list ts) (depth + 1) (scalarsList vs) (.list (encodeList vs)) := by
  induction ts generalizing vs with
  | nil =>
    obtain rfl : vs = [] := by simpa [eq_comm] using h
    exact ⟨fun _ hx => (nomatch hx), by simp [encodeList, Tree.depth, Tree.depthList]⟩
  | cons t ts ih =>
    simp only [List.mapM_cons, Option.bind_eq_bind, Option.bind_eq_some_iff] at h
    obtain ⟨v, hv, rest, hrest, heq⟩ := h
    obtain rfl := Option.some.inj heq
    have hlist : (Tree.list ts).doubles ⊆ (Tree.list (t :: ts)).doubles := by
      simp only [Tree.doubles, Tree.doublesList]
      exact List.subset_append_right _ _
    have hfirst : DecodedFrom (.list (t :: ts)) depth v.scalars v.encode :=
      (hitem t v hv).mono (Tree.doubles_subset_list List.mem_cons_self)
    have hrest := (ih hrest).mono hlist
    refine ⟨?_, ?_⟩
    · intro x hx
      exact (List.mem_append.1 hx).elim (hfirst.floats x) (hrest.floats x)
    · have hle := hfirst.depth_le
      have hle' := hrest.depth_le
      simp only [encodeList, Tree.depth, Tree.depthList] at hle' ⊢
      omega

/-- A decoded value has its doubles from the tree and would be encoded no deeper than the
    decoder went. -/
theorem decodedFrom {depth : Nat} {t : Tree} {v : Value}
    (h : decode conventions depth t = some v) : DecodedFrom t depth v.scalars v.encode := by
  induction depth using Nat.strongRecOn generalizing t v with
  | ind depth ih =>
    rw [decode.eq_def] at h
    split at h
    case h_1 name =>
      split at h
      · obtain rfl := Option.some.inj h
        exact ⟨by simp [scalars], Nat.zero_le _⟩
      · cases h
    case h_3 => cases h
    case h_2 depth name payload =>
      have hpayload : payload.doubles ⊆ (Tree.table [(name, payload)]).doubles :=
        Tree.doubles_subset_table (List.mem_singleton.2 rfl)
      split at h
      case h_1 =>
        split at h
        · obtain rfl := Option.some.inj h
          exact ⟨by simp [scalars], Nat.zero_le _⟩
        · cases h
      case h_2 =>
        obtain ⟨b, -, rfl⟩ := Option.map_eq_some_iff.1 h
        exact .scalar rfl (by simp)
      case h_3 =>
        obtain ⟨n, -, rfl⟩ := Option.map_eq_some_iff.1 h
        exact .scalar rfl (by simp)
      case h_4 =>
        obtain ⟨x, hx, rfl⟩ := Option.map_eq_some_iff.1 h
        refine .scalar rfl ?_
        rintro _ ⟨⟩
        exact hpayload (float_mem_doubles hx)
      case h_5 =>
        obtain ⟨d, -, rfl⟩ := Option.map_eq_some_iff.1 h
        exact .scalar rfl (by simp)
      case h_6 =>
        obtain ⟨s, -, rfl⟩ := Option.map_eq_some_iff.1 h
        exact .scalar rfl (by simp)
      case h_7 =>
        obtain ⟨t, -, rfl⟩ := Option.map_eq_some_iff.1 h
        exact .scalar rfl (by simp)
      case h_8 =>
        split at h
        · obtain ⟨vs, hvs, rfl⟩ := Option.map_eq_some_iff.1 h
          exact (decodedFrom_items (fun t v => ih _ (by omega)) hvs).variant
        · cases h
      case h_9 => cases h

end Value

/-! ### Predicate trees -/

/-- A decoded tree has its doubles from the document and would be encoded no deeper than the
    decoder went. -/
theorem Expr.decodedFrom {depth : Nat} {t : Tree} {e : Expr}
    (h : decode conventions depth t = some e) : DecodedFrom t depth e.scalars e.encode := by
  induction depth using Nat.strongRecOn generalizing t e with
  | ind depth ih =>
    rw [decode.eq_def] at h
    split at h
    case h_2 => cases h
    case h_1 depth name payload =>
      split at h
      case h_1 =>
        obtain ⟨v, hv, rfl⟩ := Option.map_eq_some_iff.1 h
        rw [scalars_literal]
        exact (Value.decodedFrom hv).variant
      case h_2 =>
        obtain ⟨s, -, rfl⟩ := Option.map_eq_some_iff.1 h
        exact .plain rfl
      case h_3 =>
        obtain ⟨v, hv, rfl⟩ := Option.map_eq_some_iff.1 h
        rw [scalars_computed]
        exact (Value.decodedFrom hv).variant
      case h_4 =>
        obtain ⟨operand, hoperand, rfl⟩ := Option.map_eq_some_iff.1 h
        exact (ih depth (by omega) hoperand).variant
      case h_5 =>
        split at h
        case h_1 depth op left right hfields =>
          simp only [Option.bind_eq_bind, Option.bind_eq_some_iff] at h
          obtain ⟨op', -, l, hl, r, hr, heq⟩ := h
          obtain rfl := Option.some.inj heq
          have hleft := (ih depth (by omega) hl).mono
            (Tree.doubles_subset_of_payloadFields? hfields (by simp))
          have hright := (ih depth (by omega) hr).mono
            (Tree.doubles_subset_of_payloadFields? hfields (by simp))
          rw [scalars_binary]
          refine DecodedFrom.variant (hleft.pair hright ?_)
          simp [Operator.encode, Tree.depth, Tree.depthMembers]
        case h_2 => cases h
      case h_6 =>
        split at h
        case h_1 depth item collection hfields =>
          simp only [Option.bind_eq_bind, Option.bind_eq_some_iff] at h
          obtain ⟨l, hl, r, hr, heq⟩ := h
          obtain rfl := Option.some.inj heq
          have hitem := (ih depth (by omega) hl).mono
            (Tree.doubles_subset_of_payloadFields? hfields (by simp))
          have hcollection := (ih depth (by omega) hr).mono
            (Tree.doubles_subset_of_payloadFields? hfields (by simp))
          rw [scalars_membership]
          refine DecodedFrom.variant (hitem.pair hcollection ?_)
          simp [Tree.depth, Tree.depthMembers]
        case h_2 => cases h
      case h_7 =>
        split at h
        · obtain rfl := Option.some.inj h
          exact .plain rfl
        · obtain ⟨body, hbody, rfl⟩ := Option.map_eq_some_iff.1 h
          exact (ih depth (by omega) hbody).variant
      case h_8 =>
        obtain ⟨kind, -, rfl⟩ := Option.map_eq_some_iff.1 h
        exact .plain rfl
      case h_9 => cases h

/-! ### Queries -/

/-- Nothing is decoded from a tree. -/
theorem DecodedFrom.none {t : Tree} {depth : Nat} :
    DecodedFrom t depth [] (encodePredicate none) :=
  ⟨fun _ hx => (nomatch hx), Nat.zero_le _⟩

theorem decodedFrom_predicate {depth : Nat} {t : Tree} {field : Option Tree}
    {predicate : Option Expr} (hfield : ∀ part, field = some part → part.doubles ⊆ t.doubles)
    (h : fieldOr none (decodePredicate conventions depth) field = some predicate) :
    DecodedFrom t depth (predicate.toList.flatMap Expr.scalars) (encodePredicate predicate) := by
  cases field with
  | none =>
    obtain rfl := Option.some.inj h
    exact .none
  | some part =>
    rw [fieldOr, decodePredicate.eq_def] at h
    split at h
    · obtain rfl := Option.some.inj h
      exact .none
    · obtain ⟨p, hp, rfl⟩ := Option.map_eq_some_iff.1 h
      simpa [encodePredicate] using (Expr.decodedFrom hp).mono (hfield part rfl)

theorem Clauses.decodedFrom {depth : Nat} {t : Tree} {c : Clauses}
    (h : decode conventions (depth + 1) t = some c) :
    DecodedFrom t depth c.scalars (encodePredicate c.predicate) := by
  rw [decode] at h
  split at h
  case h_1 predicate groupBy orderBy projection sum count limit offset hfields =>
    simp only [Option.bind_eq_bind, Option.bind_eq_some_iff] at h
    obtain ⟨p, hp, _, -, _, -, _, -, _, -, _, -, _, -, _, -, heq⟩ := h
    obtain rfl := Option.some.inj heq
    exact decodedFrom_predicate
      (fun part hpart => Tree.doubles_subset_of_fields? hfields (by simp [hpart])) hp
  case h_2 => cases h

/-- A decoded query has its doubles from the document, and its condition would be encoded no
    deeper than the decoder went. -/
theorem Query.decodedFrom {depth : Nat} {t : Tree} {q : Query}
    (h : decode conventions (depth + 2) t = some q) :
    DecodedFrom t depth q.scalars (encodePredicate q.clauses.predicate) := by
  rw [decode] at h
  split at h
  case h_1 entity clauses hfields =>
    simp only [Option.bind_eq_bind, Option.bind_eq_some_iff] at h
    obtain ⟨e, -, c, hc, heq⟩ := h
    obtain rfl := Option.some.inj heq
    cases clauses with
    | none =>
      obtain rfl := Option.some.inj hc
      exact .none
    | some part =>
      exact (Clauses.decodedFrom hc).mono (Tree.doubles_subset_of_fields? hfields (by simp))
  case h_2 => cases h

end SqlSelect
