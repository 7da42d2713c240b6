import SqlSelect.CommandLine.Paint
import SqlSelect.Inspect

/-!
# Reports

The texts that the commands print.

## Main definitions

* `Report.explanation`: how a query is understood;
* `Report.operatorTable`: the operators with their tokens;
* `Report.verboseNote` and `Report.failure`.
-/

namespace SqlSelect

namespace Report

def unlines (lines : List String) : String := String.join (lines.map (· ++ "\n"))

def nameList (names : List String) : String := String.intercalate ", " names

variable (paint : Paint → String → String)

def labelled (label : String) (style : Paint) (text : String) : String :=
  "  " ++ paint .dimmed label ++ " " ++ paint style text

/-- A labelled list of names, or no line if there are none. -/
def labelledNames (label : String) (names : List String) : List String :=
  if names = [] then [] else [labelled paint label .white (nameList names)]

def entityLines (e : Entity) : List String :=
  [paint .boldGreen "Entity:",
    labelled paint "Table:" .white e.table,
    labelled paint "Fields:" .white (nameList e.fields)] ++
  match e.primary? with
  | some name => [labelled paint "Primary:" .cyan name]
  | none => []

def clauseLines (q : Query) : List String :=
  let c := q.clauses
  [paint .boldGreen "Clauses:",
    labelled paint "Projection:" .white (nameList q.fields)] ++
  labelledNames paint "Group by:" c.groupBy ++
  labelledNames paint "Order by:" c.orderBy ++
  labelledNames paint "Sum:" c.sum ++
  labelledNames paint "Count:" c.count ++
  [labelled paint "Offset:" .cyan (toString c.offset.toNat),
    labelled paint "Limit:" .cyan (toString c.limit.toNat)]

/-- The lines about the condition of a query: its size and its text, with a warning
    about its first gap. -/
def predicateLines (p : Expr) : List String :=
  [paint .boldGreen "Predicate:" ++ " " ++ paint .cyan (toString p.nodeCount) ++ " node(s)",
    match p.strictSql with
    | .ok text => "  " ++ paint .white text
    | .error gap =>
      "  " ++ paint .white p.sql ++ " " ++ paint .yellow "⚠" ++ " " ++
        paint .yellow gap.message]

/-- The explanation of a query that was loaded from a file. -/
def explanation (file : String) (q : Query) (rendered : Except RenderError String) : String :=
  unlines <|
    [paint .boldCyan "Query Explanation", "",
      paint .dimmed "Document:" ++ " " ++ paint .yellow file, ""] ++
    entityLines paint q.entity ++ [""] ++
    clauseLines paint q ++
    (match q.clauses.predicate with
      | some p => "" :: predicateLines paint p
      | none => []) ++
    ["", paint .boldGreen "Generated SQL:"] ++
    (match rendered with
      | .ok text => ["  " ++ paint .white text]
      | .error _ => [])

/-- The note that an explained query cannot be rendered. -/
def renderFailure (e : RenderError) : String :=
  unlines ["  " ++ paint .boldRed "Render Error:" ++ " " ++ e.message]

def padTo (width : Nat) (text : String) : String :=
  text ++ String.ofList (List.replicate (width - text.length) ' ')

def operatorLine (op : Operator) : String :=
  let token := match op.token? with
    | some token => paint .cyan ("'" ++ token ++ "'")
    | none => paint .dimmed "(no rendering)"
  paint .yellow (padTo 22 op.name) ++ " " ++ token

def operatorTable : String :=
  unlines <|
    [paint .boldCyan "Operator Reference", "",
      paint .boldWhite (padTo 22 "Operator") ++ " " ++ paint .boldWhite "SQL Token",
      paint .dimmed (String.ofList (List.replicate 40 '─'))] ++
    Operator.all.map (operatorLine paint)

/-- The note of what is rendered and how. -/
def verboseNote (file : String) (options : RenderOptions) : String :=
  unlines [
    paint .dimmed "Input:" ++ " " ++ paint .yellow file,
    paint .dimmed "Options:" ++ " " ++ options.inspect]

def failure (message : String) : String :=
  unlines [paint .boldRed "Error:" ++ " " ++ message]

end Report

end SqlSelect
