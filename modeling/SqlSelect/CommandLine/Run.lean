import SqlSelect.CommandLine.Arguments
import SqlSelect.CommandLine.Report
import SqlSelect.Document.Storage

/-!
# Running commands

A command line turns a file system and an environment into an exit code and two
output texts.

## Main definitions

* `Environment` and `Outcome`;
* `Invocation.run`: one command;
* `runCommandLine`: everything from the arguments on.
-/

namespace SqlSelect

/-- What a command line sees besides its arguments. -/
structure Environment where
  files : FileSystem
  /-- The user's configuration directory, if there is one. -/
  configurationDirectory : Option String
  /-- The value of a variable of the environment. -/
  setting : String → Option String
  /-- What the readers of documents and of configurations say about a text that they
      cannot read. -/
  complaint : Complaint

/-- Paint is on where it is forced. -/
def Environment.isPainted (env : Environment) : Bool :=
  match env.setting "CLICOLOR_FORCE" with
  | some value => value != "0"
  | none => false

/-- What a command leaves behind. A verbose run, and any run whose environment asks for it,
    also writes log lines to standard error. They carry the time of day and are no part of
    an outcome: `stderr` is what is written there besides them. -/
structure Outcome where
  code : Nat
  stdout : String := ""
  stderr : String := ""
deriving DecidableEq

/-- The name and the version of the program. -/
def versionLine : String := "lambda-sql 0.3.0"

def usageText : String :=
  Report.unlines [
    "Render typed query documents to a single SQL SELECT",
    "",
    "Usage: lambda-sql [OPTIONS] <COMMAND>",
    "",
    "Commands:",
    "  render <FILE>",
    "  explain <FILE>",
    "  operators",
    "",
    "Options:",
    "  --config <CONFIG>",
    "  --strict",
    "  --require-filter",
    "  --legacy-spacing",
    "  -v, --verbose",
    "  -h, --help",
    "  -V, --version"]

namespace Invocation

/-- A command that fails before it prints anything to standard output. -/
def failed (paint : Paint → String → String) (note message : String) : Outcome :=
  { code := 1, stderr := note ++ Report.failure paint message }

/-- The options and the query of a command on a file. The options are those of the
    configuration and those of the command line together, and they are loaded
    first. -/
def loadFile (env : Environment) (i : Invocation) (file : String) :
    Except String (RenderOptions × Query) := do
  -- A configuration that cannot be loaded is reported before the query is looked at.
  let stored ← (RenderOptions.discover env.complaint env.files env.configurationDirectory
    i.configuration).mapError fun e => "loading configuration: " ++ e.report
  let q ← (Query.load env.complaint env.files file).mapError fun e =>
    "reading " ++ file ++ ": " ++ e.report
  pure (stored.union i.flags, q)

/-- Renders the query of a file. A verbose run first says what it works on; the log
    lines that it can write as well are left out, as in every outcome. -/
def render (env : Environment) (i : Invocation) (file : String) : Outcome :=
  let paint := Paint.apply env.isPainted
  match i.loadFile env file with
  | .error message => failed paint "" message
  | .ok (options, q) =>
    let note := if i.verbose then Report.verboseNote paint file options else ""
    match q.render options with
    | .ok text => { code := 0, stdout := Report.unlines [text], stderr := note }
    | .error e => failed paint note e.message

/-- Explains the query of a file. A query that cannot be rendered is explained all
    the same. A verbose run says no more than any other, log lines apart. -/
def explain (env : Environment) (i : Invocation) (file : String) : Outcome :=
  let paint := Paint.apply env.isPainted
  match i.loadFile env file with
  | .error message => failed paint "" message
  | .ok (options, q) =>
    let rendered := q.render options
    { code := 0
      stdout := Report.explanation paint file q rendered
      stderr := match rendered with
        | .ok _ => ""
        | .error e => Report.renderFailure paint e }

def run (env : Environment) (i : Invocation) : Outcome :=
  match i.command with
  | .render file => i.render env file
  | .explain file => i.explain env file
  | .operators =>
    { code := 0, stdout := Report.operatorTable (Paint.apply env.isPainted) }

end Invocation

/-- Runs a command line. A misused one prints a reminder and has the code 2. -/
def runCommandLine (env : Environment) (arguments : List String) : Outcome :=
  match Request.ofArguments (env.setting "LAMBDA_SQL_CONFIG") arguments with
  | .run i => i.run env
  | .version => { code := 0, stdout := Report.unlines [versionLine] }
  | .help => { code := 0, stdout := usageText }
  | .misuse => { code := 2, stderr := usageText }

end SqlSelect
