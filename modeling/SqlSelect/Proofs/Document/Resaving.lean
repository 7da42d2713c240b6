import SqlSelect.Proofs.Document.Decoded
import SqlSelect.Proofs.Document.JsonGrammar
import SqlSelect.Proofs.Document.RoundTrip
import SqlSelect.Proofs.Number.Range

/-!
# Saving what was loaded

A query that was loaded from JSON, however it was spelled, can be saved and loaded again:
the reader makes only finite numbers, and what was decoded within the limit is encoded
within it. A decimal with an exponent may be rounded to a zero with a minus sign, which is
saved but not loaded.

## Main definitions

* `Tree.FiniteDoubles`: every number of a tree is in the range of doubles.

## Main statements

* `Json.ValueText.finiteDoubles`: JSON has no other numbers;
* `Query.toJson_asRead_eq_iff`: which queries are saved alike after they were loaded;
* `Query.exists_ofJson?_toJson_of_ofJson?`: a loaded query is saved and loaded as an equal
  one.
-/

namespace SqlSelect

/-- Every number of the tree is a finite double. -/
def Tree.FiniteDoubles (t : Tree) : Prop := ∀ x ∈ t.doubles, x.isFinite = true

theorem Tree.finiteDoubles_list {ts : List Tree} :
    (list ts).FiniteDoubles ↔ ∀ t ∈ ts, t.FiniteDoubles := by
  rw [FiniteDoubles, doubles]
  induction ts with
  | nil => simp [doublesList]
  | cons t ts ih =>
    simp only [doublesList, List.mem_append, or_imp, forall_and, ih, List.forall_mem_cons]
    rfl

theorem Tree.finiteDoubles_table {ms : List (String × Tree)} :
    (table ms).FiniteDoubles ↔ ∀ m ∈ ms, m.2.FiniteDoubles := by
  rw [FiniteDoubles, doubles]
  induction ms with
  | nil => simp [doublesMembers]
  | cons m ms ih =>
    simp only [doublesMembers, List.mem_append, or_imp, forall_and, ih, List.forall_mem_cons]
    rfl

namespace Json

open SqlSelect.Tree

/-! ### The numbers of JSON texts -/

theorem finiteDoubles_floatTree (x : Double) : (floatTree x).FiniteDoubles := by
  rw [floatTree]
  split
  case isTrue hx => simpa [FiniteDoubles, doubles] using hx
  case isFalse => simp [FiniteDoubles, doubles]

theorem finiteDoubles_int {n : Int} (h : n.natAbs < 10 ^ 20) : (Tree.int n).FiniteDoubles := by
  simpa [FiniteDoubles, doubles] using Double.isFinite_ofInt h

/-- An integer is read as one only if it has at most 64 bits. -/
theorem finiteDoubles_integerTree (l : NumberLiteral) : (integerTree l).FiniteDoubles := by
  simp only [integerTree]
  split
  · split
    case isTrue h => exact finiteDoubles_int (by omega)
    case isFalse => exact finiteDoubles_floatTree _
  · split
    case isTrue h =>
      have hsize : l.digits < 18446744073709551616 := h
      exact finiteDoubles_int (by omega)
    case isFalse => exact finiteDoubles_floatTree _

theorem NumberText.finiteDoubles {cs : List Char} {t : Tree} (h : NumberText cs t) :
    t.FiniteDoubles := by
  cases h with
  | @mk negative whole cs fraction es exponent =>
    rw [numberTree]
    split
    · exact finiteDoubles_integerTree _
    · exact finiteDoubles_floatTree _

theorem finiteDoubles_stringTree (pieces : List Piece) : (stringTree pieces).FiniteDoubles := by
  rw [stringTree]
  cases string? pieces <;> simp [FiniteDoubles, doubles]

theorem finiteDoubles_tableTree {ms : List (Option String × Tree)}
    (h : ∀ m ∈ ms, m.2.FiniteDoubles) : (tableTree ms).FiniteDoubles := by
  rw [tableTree]
  split
  case h_2 => simp [FiniteDoubles, doubles]
  case h_1 members hmembers =>
    rw [finiteDoubles_table]
    induction ms generalizing members with
    | nil =>
      obtain rfl : members = [] := by simpa [eq_comm] using hmembers
      exact List.forall_mem_nil _
    | cons m ms ih =>
      obtain ⟨hfirst, hrest⟩ := List.forall_mem_cons.1 h
      simp only [List.mapM_cons, Option.bind_eq_bind, Option.bind_eq_some_iff,
        Option.map_eq_some_iff] at hmembers
      obtain ⟨_, ⟨key, -, rfl⟩, members', hmembers', heq⟩ := hmembers
      obtain rfl := Option.some.inj heq
      exact List.forall_mem_cons.2 ⟨hfirst, ih hrest members' hmembers'⟩

mutual

/-- A JSON text stands for no number that is not finite. -/
theorem ValueText.finiteDoubles {cs : List Char} {t : Tree} (h : ValueText cs t) :
    t.FiniteDoubles :=
  match h with
  | .null => by simp [FiniteDoubles, doubles]
  | .bool _ => by simp [FiniteDoubles, doubles]
  | .number h => h.finiteDoubles
  | .string _ => finiteDoubles_stringTree _
  | .nilList _ => finiteDoubles_list.2 (List.forall_mem_nil _)
  | .list h => finiteDoubles_list.2 h.finiteDoubles
  | .nilTable _ => finiteDoubles_table.2 (List.forall_mem_nil _)
  | .table h => finiteDoubles_tableTree h.finiteDoubles

theorem ItemsText.finiteDoubles {cs : List Char} {ts : List Tree} (h : ItemsText cs ts) :
    ∀ t ∈ ts, t.FiniteDoubles :=
  match h with
  | .single _ h _ => List.forall_mem_singleton.2 h.finiteDoubles
  | .cons _ h _ hmore => List.forall_mem_cons.2 ⟨h.finiteDoubles, hmore.finiteDoubles⟩

theorem EntryText.finiteDoubles {cs : List Char} {m : Option String × Tree}
    (h : EntryText cs m) : m.2.FiniteDoubles :=
  match h with
  | .mk _ _ _ h => h.finiteDoubles

theorem EntriesText.finiteDoubles {cs : List Char} {ms : List (Option String × Tree)}
    (h : EntriesText cs ms) : ∀ m ∈ ms, m.2.FiniteDoubles :=
  match h with
  | .single _ h _ => List.forall_mem_singleton.2 h.finiteDoubles
  | .cons _ h _ hmore => List.forall_mem_cons.2 ⟨h.finiteDoubles, hmore.finiteDoubles⟩

end

theorem finiteDoubles_of_read? {text : String} {t : Tree} (h : read? text = some t) :
    t.FiniteDoubles := by
  have hdocument := read?_eq_some_iff.1 h
  generalize text.toList = cs at hdocument
  cases hdocument with
  | mk _ hvalue _ => exact hvalue.finiteDoubles

end Json

/-! ### Texts with signed zeros -/

/-- The value is a zero decimal with a minus sign. -/
def Value.isSignedZero : Value → Bool
  | .decimal d => d.negative && d.coefficient == 0
  | _ => false

theorem not_unsignedZeros {vs : List Value} (h : vs.any Value.isSignedZero = true) :
    ¬UnsignedZeros vs := by
  intro hunsigned
  obtain ⟨v, hv, hzero⟩ := List.any_eq_true.1 h
  cases v with
  | decimal d =>
    have hd := hunsigned d hv
    simp [Value.isSignedZero] at hzero
    simp [hzero] at hd
  | _ => cases hzero

theorem Tree.asJson_variant_inj {name : String} {t u : Tree} :
    (variant name t).asJson = (variant name u).asJson ↔ t.asJson = u.asJson := by
  simp [variant, asJson, asJsonMembers]

namespace Value

mutual

/-- A value with a signed zero is encoded differently once it was read. -/
theorem unsignedZeros_of_asJson_eq (v : Value) (h : v.asRead.encode.asJson = v.encode.asJson) :
    UnsignedZeros v.scalars := by
  match v with
  | .decimal d =>
    have htext : String.ofList d.asRead.text = String.ofList d.text :=
      Tree.text.inj (Tree.asJson_variant_inj.1 h)
    rintro _ hd
    obtain ⟨rfl⟩ := List.mem_singleton.1 hd
    exact d.text_asRead_eq_iff.1 (String.ofList_injective htext)
  | .array items =>
    exact unsignedZeros_of_asJsonList_eq items (Tree.list.inj (Tree.asJson_variant_inj.1 h))
  | .null | .bool _ | .int _ | .float _ | .text _ | .dateTime _ => simp [UnsignedZeros, scalars]

theorem unsignedZeros_of_asJsonList_eq (vs : List Value)
    (h : Tree.asJsonList (encodeList (asReadList vs)) = Tree.asJsonList (encodeList vs)) :
    UnsignedZeros (scalarsList vs) := by
  match vs with
  | [] => simp [UnsignedZeros, scalarsList]
  | v :: rest =>
    obtain ⟨hfirst, hrest⟩ := List.cons.inj h
    rw [scalarsList, unsignedZeros_append]
    exact ⟨unsignedZeros_of_asJson_eq v hfirst, unsignedZeros_of_asJsonList_eq rest hrest⟩

end

end Value

theorem Expr.unsignedZeros_of_asJson_eq {e : Expr}
    (h : e.asRead.encode.asJson = e.encode.asJson) : UnsignedZeros e.scalars := by
  induction e with
  | literal v =>
    rw [scalars_literal]
    exact v.unsignedZeros_of_asJson_eq (Tree.asJson_variant_inj.1 h)
  | computed v =>
    rw [scalars_computed]
    exact v.unsignedZeros_of_asJson_eq (Tree.asJson_variant_inj.1 h)
  | unary e ih | lambda e ih => exact ih (Tree.asJson_variant_inj.1 h)
  | binary op l r ihl ihr =>
    have hboth : l.asRead.encode.asJson = l.encode.asJson ∧
        r.asRead.encode.asJson = r.encode.asJson := by
      simpa [asRead, encode, Tree.variant, Tree.asJson, Tree.asJsonMembers] using h
    rw [scalars_binary, unsignedZeros_append]
    exact ⟨ihl hboth.1, ihr hboth.2⟩
  | membership l r ihl ihr =>
    have hboth : l.asRead.encode.asJson = l.encode.asJson ∧
        r.asRead.encode.asJson = r.encode.asJson := by
      simpa [asRead, encode, Tree.variant, Tree.asJson, Tree.asJsonMembers] using h
    rw [scalars_membership, unsignedZeros_append]
    exact ⟨ihl hboth.1, ihr hboth.2⟩
  | field _ | foreign _ | emptyLambda => simp [UnsignedZeros, scalars, values]

namespace Query

theorem unsignedZeros_of_asJson_eq {q : Query}
    (h : q.asRead.encode.asJson = q.encode.asJson) : UnsignedZeros q.scalars := by
  obtain ⟨entity, ⟨predicate⟩⟩ := q
  cases predicate with
  | none => simp [UnsignedZeros, scalars, Clauses.scalars]
  | some p =>
    have hp : p.asRead.encode.asJson = p.encode.asJson := by
      simpa [asRead, Clauses.asRead, encode, Clauses.encode, Tree.asJson, Tree.asJsonMembers] using h
    simpa [scalars, Clauses.scalars] using Expr.unsignedZeros_of_asJson_eq hp

/-- A query is saved as before once it was read exactly if it has no signed zero. -/
theorem toJson_asRead_eq_iff (q : Query) : q.asRead.toJson = q.toJson ↔ UnsignedZeros q.scalars := by
  constructor
  · intro h
    have hread := Json.read?_print .pretty q.asRead.encode
    rw [← toJson, h, toJson, Json.read?_print .pretty q.encode] at hread
    exact unsignedZeros_of_asJson_eq (Option.some.inj hread).symm
  · intro h
    rw [asRead_eq_self h]

/-! ### Loading, saving and loading -/

theorem depth_encode_columns_le (columns : List Column) :
    (Tree.list (columns.map Column.encode)).depth ≤ 2 := by
  rw [Tree.depth]
  induction columns with
  | nil => simp [Tree.depthList]
  | cons c columns ih =>
    rw [List.map_cons, Tree.depthList, c.depth_encode]
    omega

theorem depth_encode_le {q : Query} {depth : Nat} (hdepth : 2 ≤ depth)
    (h : (encodePredicate q.clauses.predicate).depth ≤ depth) : q.encode.depth ≤ depth + 2 := by
  have hcolumns := depth_encode_columns_le q.entity.columns
  rw [depth_encode, Entity.depth_encode, Clauses.depth_encode]
  omega

/-- Whatever text a query is loaded from, it can be saved and loaded, and then it has lost
    no more than signs of zeros. -/
theorem ofJson?_toJson_eq_asRead {text : String} {q : Query} (h : ofJson? text = some q) :
    ofJson? q.toJson = some q.asRead ∧ q.equal q.asRead = true := by
  obtain ⟨t, ht, hdecode⟩ := Option.bind_eq_some_iff.1 h
  have hlimit : Json.nestingLimit = 125 + 2 := rfl
  rw [hlimit] at hdecode
  have hfrom := decodedFrom hdecode
  have hfloats : FiniteFloats q.scalars :=
    fun x hx => Json.finiteDoubles_of_read? ht x (hfrom.floats x hx)
  have hdepth : q.encode.depth ≤ Json.nestingLimit := depth_encode_le (by decide) hfrom.depth_le
  exact ⟨ofJson?_toJson.2 ⟨⟨hfloats, hdepth⟩, rfl⟩, equal_asRead hfloats⟩

/-- Every loaded query can be saved and loaded as an equal one, and from then on saving and
    loading change nothing. The second text is the first one again exactly if no zero
    decimal in the query has a minus sign, which a decimal with an exponent can have. -/
theorem exists_ofJson?_toJson_of_ofJson? {text : String} {q : Query}
    (h : ofJson? text = some q) :
    ∃ q', ofJson? q.toJson = some q' ∧ q.equal q' = true ∧ ofJson? q'.toJson = some q' ∧
      (q'.toJson = q.toJson ↔ UnsignedZeros q.scalars) := by
  obtain ⟨hread, hequal⟩ := ofJson?_toJson_eq_asRead h
  have hagain := (ofJson?_toJson_eq_asRead hread).1
  rw [q.asRead_asRead] at hagain
  exact ⟨q.asRead, hread, hequal, hagain, q.toJson_asRead_eq_iff⟩

/-- A text with records as lists, an unknown member, escapes, members left out, a decimal as
    a number and an alternative without payload as a table. -/
def terse : String :=
  "[\x7b\"columns\": [[\"Id\"], \x7b\"name\": \"A\\u0042\", \"note\": \"\\ud800\"\x7d], \"table\": \"T\"\x7d,
    \x7b\"predicate\": \x7b\"Binary\": [\"Equal\", \x7b\"Literal\": \x7b\"Decimal\": -10e-1\x7d\x7d,
      \x7b\"Literal\": \x7b\"Null\": null\x7d\x7d]\x7d\x7d]"

theorem exists_ofJson?_terse :
    ∃ q, ofJson? terse = some q ∧ ∃ q', ofJson? q.toJson = some q' ∧ q.equal q' = true ∧
      ofJson? q'.toJson = some q' ∧ (q'.toJson = q.toJson ↔ UnsignedZeros q.scalars) := by
  have hread : (ofJson? terse).isSome = true := by decide +kernel
  obtain ⟨q, hq⟩ := Option.isSome_iff_exists.1 hread
  exact ⟨q, hq, exists_ofJson?_toJson_of_ofJson? hq⟩

/-- A decimal so small that nothing is left of it but its sign. -/
def vanishing : String :=
  "\x7b\"entity\":\x7b\"table\":\"T\"\x7d,\"query\":\x7b\"predicate\":\x7b\"Literal\":" ++
    "\x7b\"Decimal\":\"-0.4e-28\"\x7d\x7d\x7d\x7d"

/-- The minus sign is in the text that is saved first, but not in the next. -/
theorem vanishing_saved_differently :
    ¬ ∀ (text : String) (q : Query), ofJson? text = some q →
      ∃ q', ofJson? q.toJson = some q' ∧ q.equal q' = true ∧ q'.toJson = q.toJson := by
  intro h
  have hsigned : (ofJson? vanishing).any (fun q => q.scalars.any Value.isSignedZero) = true := by
    decide +kernel
  obtain ⟨q, hq, hzero⟩ := (Option.any_eq_true _ _).1 hsigned
  obtain ⟨q', hq', -, hsame⟩ := h vanishing q hq
  rw [(ofJson?_toJson_eq_asRead hq).1] at hq'
  obtain rfl := Option.some.inj hq'
  exact not_unsignedZeros hzero (q.toJson_asRead_eq_iff.1 hsame)

end Query

end SqlSelect
