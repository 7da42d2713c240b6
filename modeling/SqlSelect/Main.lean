import SqlSelect.CommandLine.Run

/-!
# The program

The outer layer of the command line: it reads the environment and the files that a
request can need, runs the request, and prints its outcome.
-/

open SqlSelect

/-- The bytes behind a path, or why there are none. -/
def readPath (path : String) : IO (Except FileError ByteArray) := do
  try
    pure (.ok (← IO.FS.readBinFile path))
  catch
    | .noFileOrDirectory .. => pure (.error .missing)
    | .inappropriateType _ code _ =>
      pure (.error (if code = 20 then .notDirectory else .isDirectory))
    | _ => pure (.error .isDirectory)

/-- The paths that a request can read. -/
def neededPaths (directory : Option String) : Request → List String
  | .run i =>
    let file := match i.command with
      | .render file | .explain file => [file]
      | .operators => []
    i.configuration.toList ++ (directory.map defaultConfiguration).toList ++ file
  | _ => []

/-- What this program says about a text that it cannot read. -/
def complaint : Complaint
  | .jsonDocument, _ => "the text is no query in JSON"
  | .tomlDocument, _ => "the text is no query in TOML"
  | .configuration, _ => "the text is no configuration in TOML"

def configurationDirectory : IO (Option String) := do
  match ← IO.getEnv "XDG_CONFIG_HOME" with
  | some directory => if directory.startsWith "/" then return some directory
  | none => pure ()
  return (← IO.getEnv "HOME").map (· ++ "/.config")

def main (arguments : List String) : IO UInt32 := do
  let directory ← configurationDirectory
  let names := ["LAMBDA_SQL_CONFIG", "CLICOLOR_FORCE"]
  let settings ← names.mapM fun name => do pure (name, ← IO.getEnv name)
  let setting := fun name => (settings.lookup name).join
  let request := Request.ofArguments (setting "LAMBDA_SQL_CONFIG") arguments
  let contents ← (neededPaths directory request).mapM fun path => do
    pure (path, ← readPath path)
  let files : FileSystem := fun path => (contents.lookup path).getD (.error .missing)
  let outcome := runCommandLine ⟨files, directory, setting, complaint⟩ arguments
  IO.print outcome.stdout
  IO.eprint outcome.stderr
  return outcome.code.toUInt32
