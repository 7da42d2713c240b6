import SqlSelect.Query

/-!
# Command-line arguments

Arguments are split into tokens, and tokens make a request. Options may stand before
and after the command; each may be given once in either place.

## Main definitions

* `Request`: what is asked for;
* `Argument.tokens`: splitting arguments;
* `Request.ofArguments`.
-/

namespace SqlSelect

/-- What a command does. -/
inductive Command where
  | render (file : String)
  | explain (file : String)
  | operators
deriving DecidableEq

/-- A command with its options. -/
structure Invocation where
  command : Command
  configuration : Option String
  flags : RenderOptions
  verbose : Bool
deriving DecidableEq

/-- What is asked for on a command line. -/
inductive Request where
  | run (invocation : Invocation)
  | version
  | help
  | misuse
deriving DecidableEq

/-- The options that need no value. -/
inductive Flag where
  | strict
  | requireFilter
  | legacySpacing
  | verbose
deriving DecidableEq

/-- A part of a command line. An `operand` is a word that stands after `--` and so
    cannot be the name of a command. -/
inductive Token where
  | flag (f : Flag)
  | configuration (path : String)
  | version
  | help
  | word (text : String)
  | operand (text : String)
  | invalid
deriving DecidableEq

namespace Argument

/-- The token of an option that is spelled out, without a value. -/
def longOption (name : List Char) : Token :=
  match String.ofList name with
  | "strict" => .flag .strict
  | "require-filter" => .flag .requireFilter
  | "legacy-spacing" => .flag .legacySpacing
  | "verbose" => .flag .verbose
  | "version" => .version
  | "help" => .help
  | _ => .invalid

/-- The token of a one-letter option. -/
def shortOption : Char → Token
  | 'v' => .flag .verbose
  | 'V' => .version
  | 'h' => .help
  | _ => .invalid

/-- The path of a configuration, which cannot be empty. -/
def configurationToken (path : List Char) : Token :=
  if path = [] then .invalid else .configuration (String.ofList path)

/-- An argument can be the value of an option: it is not an option itself. -/
def isValue : List Char → Bool
  | '-' :: _ :: _ => false
  | _ => true

/-- The tokens of one argument, other than an option that takes the next argument as
    its value. -/
def single : List Char → List Token
  | '-' :: '-' :: option =>
    match option.dropWhile (· ≠ '=') with
    | [] => [longOption option]
    | _ :: value =>
      -- No other option takes a value.
      if option.takeWhile (· ≠ '=') = "config".toList then [configurationToken value]
      else [.invalid]
  | '-' :: c :: letters => (c :: letters).map shortOption
  | text => [.word (String.ofList text)]

/-- The tokens of arguments. After `--` every argument is an operand. -/
def tokens : List (List Char) → List Token
  | [] => []
  | arg :: rest =>
    if arg = "--".toList then rest.map fun text => .operand (String.ofList text)
    else if arg = "--config".toList then
      match rest with
      | value :: rest =>
        -- The value is the next argument.
        if isValue value then configurationToken value :: tokens rest else [.invalid]
      | [] => [.invalid]
    else single arg ++ tokens rest

end Argument

/-- The options that have been given at one place of a command line. -/
structure OptionGroup where
  configuration : Option String := none
  flags : List Flag := []

namespace OptionGroup

/-- Adds a flag, unless it has been given already. -/
def addFlag? (g : OptionGroup) (f : Flag) : Option OptionGroup :=
  if f ∈ g.flags then none else some { g with flags := f :: g.flags }

/-- Adds a configuration, unless one has been given already. -/
def addConfiguration? (g : OptionGroup) (path : String) : Option OptionGroup :=
  if g.configuration.isSome then none else some { g with configuration := some path }

end OptionGroup

namespace Request

/-- Reads the options after a command and its operands, of which there are at most
    `capacity`. Whichever comes first decides, a word that does not fit or a wish for
    help. -/
def readOperands (capacity : Nat) (group : OptionGroup) (operands : List String) :
    List Token → Except Request (OptionGroup × List String)
  | [] => .ok (group, operands)
  | token :: rest =>
    match token with
    | .flag f =>
      match group.addFlag? f with
      | some group => readOperands capacity group operands rest
      | none => .error .misuse
    | .configuration path =>
      match group.addConfiguration? path with
      | some group => readOperands capacity group operands rest
      | none => .error .misuse
    | .word text | .operand text =>
      if operands.length < capacity ∧ text ≠ "" then
        readOperands capacity group (operands ++ [text]) rest
      else .error .misuse
    | .help => .error .help
    | .version | .invalid => .error .misuse

/-- The number of operands of the command of a name. -/
def operandCount? : String → Option Nat
  | "render" | "explain" => some 1
  | "operators" => some 0
  | _ => none

/-- The command of a name with its operands. -/
def command? : String → List String → Option Command
  | "render", [file] => some (.render file)
  | "explain", [file] => some (.explain file)
  | "operators", [] => some .operators
  | _, _ => none

/-- The request of a command, of the options before and after it, and of a
    configuration that the environment names. An option after the command counts
    more, and the environment counts least, but an empty name there is an error
    unless it is overridden in both places. -/
def ofParts (environment : Option String) (before : OptionGroup) (name : String)
    (tokens : List Token) : Request :=
  match operandCount? name with
  | none => .misuse
  | some capacity =>
    match readOperands capacity {} [] tokens with
    | .error request => request
    | .ok (after, operands) =>
      match command? name operands with
      | none => .misuse
      | some command =>
        let given := after.configuration <|> before.configuration
        if environment = some "" ∧
            (before.configuration.isNone ∨ after.configuration.isNone) then .misuse
        else
          let has := fun f => f ∈ before.flags ∨ f ∈ after.flags
          .run {
            command
            configuration := given <|> environment
            flags := {
              strict := has .strict
              requireFilter := has .requireFilter
              legacySpacing := has .legacySpacing }
            verbose := has .verbose }

/-- The request of the command `help`, which may be followed by the name of a
    command. -/
def helpRequest : List Token → Request
  | [] => .help
  | [.word name] => if name = "help" ∨ (operandCount? name).isSome then .help else .misuse
  | _ => .misuse

/-- Reads the options before a command, and the rest from the command on. -/
def readCommand (environment : Option String) (group : OptionGroup) : List Token → Request
  | [] => .misuse
  | token :: rest =>
    match token with
    | .flag f =>
      match group.addFlag? f with
      | some group => readCommand environment group rest
      | none => .misuse
    | .configuration path =>
      match group.addConfiguration? path with
      | some group => readCommand environment group rest
      | none => .misuse
    | .version => .version
    | .help => .help
    | .word "help" => helpRequest rest
    | .word name => ofParts environment group name rest
    | .operand _ | .invalid => .misuse

/-- The request of a command line. `environment` is the configuration that the
    environment names. -/
def ofArguments (environment : Option String) (arguments : List String) : Request :=
  readCommand environment {} (Argument.tokens (arguments.map String.toList))

end Request

end SqlSelect
