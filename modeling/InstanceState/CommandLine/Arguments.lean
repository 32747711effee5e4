import InstanceState.Files.Path

/-!
# Command line arguments

What the program is asked to do.  Options have long names; the value of an option follows it or an
equals sign, and may be given once.  What follows `--` is no option.
-/

namespace InstanceState

/-- What is wrong with the arguments of a command line. -/
inductive UsageError where
  | missingCommand
  | unknownCommand (argument : Text)
  | unknownOption (argument : Text)
  | unexpectedArgument (argument : Text)
  | unexpectedValue (option : Text)
  | missingValue (option : Text)
  | repeatedOption (option : Text)
  | missingOption (option : Text)
  | missingType
deriving DecidableEq, Repr

/-- The error as it is reported. -/
def UsageError.message : UsageError → Text
  | .missingCommand => "a command is required: generate or resolve"
  | .unknownCommand argument => "unknown command '" ++ argument ++ "'"
  | .unknownOption argument => "unknown option '" ++ argument ++ "'"
  | .unexpectedArgument argument => "unexpected argument '" ++ argument ++ "'"
  | .unexpectedValue option => "option '--" ++ option ++ "' takes no value"
  | .missingValue option => "option '--" ++ option ++ "' requires a value"
  | .repeatedOption option => "option '--" ++ option ++ "' cannot be given twice"
  | .missingOption option => "option '--" ++ option ++ "' is required"
  | .missingType => "at least one type is required"

/-- What the program is asked to do. -/
inductive Invocation where
  /-- Generate the companions of a model. -/
  | generate (model config : Path) (outDir : Option Path)
  /-- Show the commands of types. -/
  | resolve (types : List Text) (model : Option Path) (config : Path) (json : Bool)
  | version
  | help
deriving DecidableEq, Repr

/-- Why the reading of arguments ended before the last. -/
inductive Interruption where
  | usage (error : UsageError)
  | help
deriving DecidableEq, Repr

/-- The arguments that a command takes. -/
structure ArgumentShape where
  /-- The options with a value. -/
  valued : List Text
  /-- The options without a value. -/
  flags : List Text
  /-- Whether there are arguments besides the options. -/
  positional : Bool

/-- The arguments that were read. -/
structure Arguments where
  values : List (Text × Text) := []
  flags : List Text := []
  positionals : List Text := []
deriving DecidableEq, Repr

namespace Arguments

/-- The value of an option. -/
def value? (a : Arguments) (option : Text) : Option Text := a.values.lookup option

/-- Whether an option without a value was given. -/
def hasFlag (a : Arguments) (option : Text) : Bool := a.flags.contains option

/-- The arguments with one more besides the options. -/
def addPositional (shape : ArgumentShape) (a : Arguments) (argument : Text) :
    Except Interruption Arguments :=
  if shape.positional then .ok { a with positionals := a.positionals ++ [argument] }
  else .error (.usage (.unexpectedArgument argument))

/-- The arguments with the value of an option, which may not be empty. -/
def addValue (a : Arguments) (option value : Text) : Except Interruption Arguments :=
  if value.isEmpty then .error (.usage (.missingValue option))
  else if (a.value? option).isSome then .error (.usage (.repeatedOption option))
  else .ok { a with values := a.values ++ [(option, value)] }

/-- The arguments with an option without value, or the interruption that it asks for. -/
def addFlag (shape : ArgumentShape) (a : Arguments) (option : Text) :
    Except Interruption Arguments :=
  if shape.flags.contains option then
    if a.hasFlag option then .error (.usage (.repeatedOption option))
    else .ok { a with flags := a.flags ++ [option] }
  else if option = ↑"help" then .error .help
  else .error (.usage (.unknownOption option))

/-- Whether an argument has the form of an option; a lone dash has not. -/
def isOption (argument : Text) : Bool := argument.head? = some '-' && argument.length ≠ 1

/-- Reads arguments in order. -/
def read (shape : ArgumentShape) (a : Arguments) : List Text → Except Interruption Arguments
  | [] => .ok a
  | argument :: rest =>
    if argument = ↑"--" then rest.foldlM (addPositional shape) a
    else
      match Text.after? "--" argument with
      | none =>
        if isOption argument then
          if (argument.drop 1).head? = some 'h' then .error .help
          else .error (.usage (.unknownOption argument))
        else do read shape (← addPositional shape a argument) rest
      | some body =>
        match Text.cutFirst? '=' body with
        | some (option, value) =>
          if shape.valued.contains option then do read shape (← addValue a option value) rest
          else if shape.flags.contains option ∨ option = ↑"help" then
            .error (.usage (.unexpectedValue option))
          else .error (.usage (.unknownOption option))
        | none =>
          if shape.valued.contains body then
            match rest with
            | [] => .error (.usage (.missingValue body))
            | value :: rest =>
              if isOption value then .error (.usage (.missingValue body))
              else do read shape (← addValue a body value) rest
          else do read shape (← addFlag shape a body) rest

end Arguments

namespace Invocation

/-- The settings document that is read where none is named. -/
def defaultConfig : Path := "icicle.toml"

/-- The arguments of the command that generates. -/
def generateShape : ArgumentShape := ⟨["model", "config", "out-dir"], [], false⟩

/-- The arguments of the command that resolves. -/
def resolveShape : ArgumentShape := ⟨["model", "config"], ["json"], true⟩

/-- The invocation of the command that generates. -/
def ofGenerate (a : Arguments) : Except Interruption Invocation :=
  match a.value? "model" with
  | none => .error (.usage (.missingOption "model"))
  | some model =>
    .ok (.generate model ((a.value? "config").getD defaultConfig) (a.value? "out-dir"))

/-- The invocation of the command that resolves. -/
def ofResolve (a : Arguments) : Except Interruption Invocation :=
  if a.positionals.isEmpty then .error (.usage .missingType)
  else
    .ok (.resolve a.positionals (a.value? "model") ((a.value? "config").getD defaultConfig)
      (a.hasFlag "json"))

/-- The commands that take arguments, and the one that explains them. -/
def commandNames : List Text := ["generate", "resolve", "help"]

/-- The invocation that arguments ask for, unless it is interrupted. -/
def read : List Text → Except Interruption Invocation
  | [] => .error (.usage .missingCommand)
  | command :: rest =>
    if command = ↑"generate" then do ofGenerate (← Arguments.read generateShape {} rest)
    else if command = ↑"resolve" then do ofResolve (← Arguments.read resolveShape {} rest)
    else if command = ↑"help" then
      match rest with
      | [] => .error .help
      | [name] =>
        if commandNames.contains name then .error .help
        else .error (.usage (.unknownCommand name))
      | _ :: extra :: _ => .error (.usage (.unknownCommand extra))
    else if command = ↑"--version" then .ok .version
    else if command = ↑"--help" then .error .help
    else if Arguments.isOption command then
      match command.drop 1 with
      | 'V' :: _ => .ok .version
      | 'h' :: _ => .error .help
      | _ => .error (.usage (.unknownOption command))
    else .error (.usage (.unknownCommand command))

/-- The invocation that arguments ask for. -/
def parse (arguments : List Text) : Except UsageError Invocation :=
  match read arguments with
  | .ok invocation => .ok invocation
  | .error .help => .ok .help
  | .error (.usage error) => .error error

end Invocation

end InstanceState
