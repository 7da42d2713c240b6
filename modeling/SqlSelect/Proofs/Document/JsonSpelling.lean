import SqlSelect.Proofs.Document.JsonGrammar
import SqlSelect.Proofs.Document.RoundTrip
import SqlSelect.Proofs.Document.Spelling

/-!
# Spellings of a query in JSON

How a JSON document is spelled does not matter: a text of the grammar that stands for any
spelling of a query is read as what the written query is read as.

## Main statements

* `Query.ofJson?_of_spelled`: the spellings of a written query are read alike.
-/

namespace SqlSelect.Query

/-- A query that can be read after it was written is read as the same from every text that
    spells it: its records may have their members in any order, with any well-formed values
    of other names between them and without those at their defaults, and any spaces may
    stand between the tokens. -/
theorem ofJson?_of_spelled {q q' : Query} {text : String} {t : Tree}
    (hread : ofJson? q.toJson = some q') (hspelled : q.Spelled true t)
    (htext : Json.Document text.toList t) : ofJson? text = some q' ∧ q.equal q' = true := by
  obtain ⟨⟨hfloats, hdepth⟩, rfl⟩ := ofJson?_toJson.1 hread
  refine ⟨?_, equal_asRead hfloats⟩
  have hdecode : decode Json.conventions Json.nestingLimit t = some q.asRead :=
    decode_of_spelled hspelled hfloats hdepth
  rw [ofJson?, Json.decode?, htext.read?, Option.bind_some, hdecode]

/-- Orders with one number. -/
def numbered : Query where
  entity := { table := "T", columns := [⟨"Id", 0, true⟩] }
  clauses := { predicate := some (.binary .equal (.field "Id") (.literal (.int 7))) }

/-- The members of every record are in another order and most defaults are missing. There
    are members of other names with a number that is too large and with half a character. -/
def rearranged : String :=
  "\x7b \"query\": \x7b\"note\": [1e400], \"predicate\": \x7b\"Binary\": \x7b\"right\":
    \x7b\"Literal\": \x7b\"Int\":7\x7d\x7d, \"hint\": \"\\ud800\", \"left\": \x7b\"Field\": \"Id\"\x7d,
    \"op\": \"Equal\"\x7d\x7d\x7d, \"entity\": \x7b\"columns\": [\x7b\"primary\" : true, \"name\": \"Id\"\x7d],
    \"table\": \"T\"\x7d\x7d"

def rearrangedCondition : Tree :=
  .variant "Binary" (.table [("right", .variant "Literal" (.variant "Int" (.int 7))),
    ("hint", .unusable), ("left", .variant "Field" (.text "Id")), ("op", .text "Equal")])

def rearrangedClauses : Tree :=
  .table [("note", .list [.unusable]), ("predicate", rearrangedCondition)]

def rearrangedColumn : Tree := .table [("primary", .bool true), ("name", .text "Id")]

def rearrangedEntity : Tree :=
  .table [("columns", .list [rearrangedColumn]), ("table", .text "T")]

theorem document_rearranged : Json.Document rearranged.toList
    (.table [("query", rearrangedClauses), ("entity", rearrangedEntity)]) := by
  rw [← Json.read?_eq_some_iff]
  decide +kernel

theorem spelled_rearranged : numbered.Spelled true
    (.table [("query", rearrangedClauses), ("entity", rearrangedEntity)]) := by
  have hcondition : PredicateSpelled true numbered.clauses.predicate rearrangedCondition :=
    ⟨_, rfl, .mk [("hint", .unusable)] (.keep rfl (.keep rfl (.keep rfl .nil)))
      (by simp [RecordField.required]) (.inl rfl) (by decide)⟩
  have hclauses : numbered.clauses.Spelled true rearrangedClauses :=
    .mk [("note", .list [.unusable])] (.keep hcondition (.leaveOut rfl (.leaveOut rfl
      (.leaveOut rfl (.leaveOut rfl (.leaveOut rfl (.leaveOut rfl (.leaveOut rfl .nil))))))))
      (by simp [Clauses.recordFields, Clauses.namesField, Clauses.numberField]) (.inl rfl)
      (by decide)
  have hcolumn : Column.Spelled ⟨"Id", 0, true⟩ rearrangedColumn :=
    .mk [] (.keep rfl (.leaveOut rfl (.keep rfl .nil))) (by simp) (.inl rfl) (by decide)
  have hentity : numbered.entity.Spelled rearrangedEntity :=
    .mk [] (.keep rfl (.keep ⟨_, rfl, .cons hcolumn .nil⟩ .nil)) (by simp) (.inl rfl) (by decide)
  exact .mk [] (.keep hentity (.keep hclauses .nil)) (by simp) (.inl rfl) (by decide)

theorem ofJson?_rearranged : ofJson? numbered.toJson = some numbered ∧
    ofJson? rearranged = some numbered ∧ numbered.equal numbered = true := by
  have hfloats : FiniteFloats numbered.scalars := by
    have hscalars : numbered.scalars = [.int 7] := rfl
    simp [hscalars, FiniteFloats]
  have hread : ofJson? numbered.toJson = some numbered :=
    ofJson?_toJson.2 ⟨⟨hfloats, by decide⟩, rfl⟩
  exact ⟨hread, ofJson?_of_spelled hread spelled_rearranged document_rearranged⟩

end SqlSelect.Query
