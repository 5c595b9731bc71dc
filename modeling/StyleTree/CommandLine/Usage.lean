import StyleTree.CommandLine.Switch

/-!
# Usage

What can be wrong with a command line, and how to use the program.

## Main definitions

* `UsageError` — what is wrong with a command line
* `UsageError.message` — its text
* `usage` — how to use the program or a command
-/

namespace StyleTree.CommandLine

/-- What is wrong with a command line. -/
inductive UsageError where
  /-- An argument is no switch of the command, or one operand too many. -/
  | unexpectedArgument (argument : String)
  /-- The name of a command is needed, and this is none. -/
  | unknownCommand (word : String)
  /-- A switch that takes no value has one. -/
  | unexpectedValue (value : String) (s : Switch)
  /-- A switch that takes a value has none. -/
  | missingValue (s : Switch)
  /-- The value of a switch is none of those it can have. -/
  | invalidValue (value : String) (s : Switch)
  /-- A switch is given twice. -/
  | repeated (s : Switch)
  /-- Two switches exclude each other. -/
  | excluded (s other : Switch)
  /-- Operands are missing. -/
  | missingOperands (names : List String)
  deriving DecidableEq

/-- What is wrong, as a text. -/
def UsageError.message : UsageError → String
  | .unexpectedArgument argument => "unexpected argument '" ++ argument ++ "' found"
  | .unknownCommand word => "unrecognized subcommand '" ++ word ++ "'"
  | .unexpectedValue value s =>
    "unexpected value '" ++ value ++ "' for '" ++ s.shown ++ "' found; no more were expected"
  | .missingValue s => "a value is required for '" ++ s.shown ++ "' but none was supplied"
  | .invalidValue value s => "invalid value '" ++ value ++ "' for '" ++ s.shown ++ "'"
  | .repeated s => "the argument '" ++ s.shown ++ "' cannot be used multiple times"
  | .excluded s other =>
    "the argument '" ++ s.shown ++ "' cannot be used with '" ++ other.shown ++ "'"
  | .missingOperands names =>
    "the following required arguments were not provided:" ++
      String.join (names.map fun name => "\n  <" ++ name ++ ">")

/-- A switch in a list of switches. -/
def Switch.usageLine (s : Switch) : String :=
  match s.letter? with
  | some letter => "  -" ++ String.ofList [letter] ++ ", " ++ s.shown
  | none => "      " ++ s.shown

/-- How to use the program, or one of its commands. -/
def usage (place : Option Command) : String :=
  let call := match place with
    | none => "Usage: stylec [OPTIONS] [COMMAND]"
    | some command =>
      "Usage: stylec " ++ command.word ++ " [OPTIONS]" ++
        String.join (command.operands.map fun name => " <" ++ name ++ ">")
  let commands := match place with
    | none => "" :: "Commands:" :: Command.all.map fun command => "  " ++ command.word
    | some _ => []
  "\n".intercalate
    (call :: commands ++ "" :: "Options:" :: (switches place).map Switch.usageLine)

end StyleTree.CommandLine
