/-!
# Switches and commands

The vocabulary of the command line: the commands, the switches that each of them takes, and the
operands that each of them needs. A switch is a word after two hyphens, many also a letter after
one; some switches take a value. The switches for more messages are accepted, but change nothing in
what a run does: it reports in one way.

## Main definitions

* `Switch` — the switches, with their words, letters and values
* `Command` — the commands, with their operands
* `switches` — the switches that can stand before, or after, a command
* `Format` — what a compilation can print at its end
-/

namespace StyleTree.CommandLine

/-- The switches of the program and of its commands. -/
inductive Switch where
  /-- The configuration to use. -/
  | config
  /-- More messages about progress. -/
  | verbose
  /-- The version of the program. -/
  | version
  /-- How to use the program. -/
  | help
  /-- The file to write. -/
  | output
  /-- The class to compile under. -/
  | className
  /-- The selector to compile under. -/
  | selector
  /-- The component in generated class names. -/
  | component
  /-- What to print at the end. -/
  | format
  /-- Whether references must resolve. -/
  | strict
  /-- More messages about a compilation. -/
  | debug
  /-- Whether to print statistics. -/
  | stats
  /-- Whether to compile again after changes. -/
  | watch
  /-- Whether to look into directories. -/
  | recursive
  deriving DecidableEq

namespace Switch

/-- The word of a switch. -/
def word : Switch → String
  | .config => "config"
  | .verbose => "verbose"
  | .version => "version"
  | .help => "help"
  | .output => "output"
  | .className => "class"
  | .selector => "selector"
  | .component => "component"
  | .format => "format"
  | .strict => "strict"
  | .debug => "debug"
  | .stats => "stats"
  | .watch => "watch"
  | .recursive => "recursive"

/-- The letter of a switch, if it has one. -/
def letter? : Switch → Option Char
  | .config => some 'c'
  | .verbose => some 'v'
  | .version => some 'V'
  | .help => some 'h'
  | .output => some 'o'
  | .selector => some 's'
  | .format => some 'f'
  | .debug => some 'd'
  | .watch => some 'w'
  | .recursive => some 'r'
  | .className | .component | .strict | .stats => none

/-- What stands for the value of a switch in messages; a switch without it takes no value. -/
def valueName? : Switch → Option String
  | .config | .output => some "<FILE>"
  | .className | .component => some "<NAME>"
  | .selector => some "<SELECTOR>"
  | .format => some "<format>"
  | _ => none

/-- Whether a switch takes a value. -/
def takesValue (s : Switch) : Bool := s.valueName?.isSome

/-- Whether a switch can be given more than once. -/
def isRepeatable (s : Switch) : Bool := s = .verbose

/-- A switch as messages show it. -/
def shown (s : Switch) : String :=
  "--" ++ s.word ++
    match s.valueName? with
    | some name => " " ++ name
    | none => if s.isRepeatable then "..." else ""

end Switch

/-- What a compilation can print at its end. -/
inductive Format where
  /-- Nothing: the style sheet is in its file. -/
  | css
  /-- The statistics as a JSON document. -/
  | json
  /-- The written file. -/
  | debug
  deriving DecidableEq

/-- The format of a name. -/
def Format.ofName? (name : String) : Option Format :=
  match name with
  | "css" => some .css
  | "json" => some .json
  | "debug" => some .debug
  | _ => none

/-- The commands. -/
inductive Command where
  /-- Compiles a style document into a file. -/
  | compile
  /-- Checks style documents. -/
  | check
  /-- Prints a style document without shorthands. -/
  | expand
  /-- Prints the class name of a style document. -/
  | name
  /-- Prints the value of a token reference. -/
  | resolve
  /-- Tells how to use a command. -/
  | help
  deriving DecidableEq

namespace Command

/-- All commands. -/
def all : List Command := [.compile, .check, .expand, .name, .resolve, .help]

/-- The word of a command. -/
def word : Command → String
  | .compile => "compile"
  | .check => "check"
  | .expand => "expand"
  | .name => "name"
  | .resolve => "resolve"
  | .help => "help"

/-- The command of a word. -/
def ofWord? (word : String) : Option Command :=
  all.find? fun command => command.word = word

/-- The operands that a command needs, in order. -/
def operands : Command → List String
  | .compile | .check | .expand | .name => ["input"]
  | .resolve => ["property", "reference"]
  | .help => []

/-- A command is found by its word. -/
theorem ofWord?_word {command : Command} : ofWord? command.word = some command := by
  cases command <;> rfl

end Command

/-- The switches that can follow a command, or that can stand before any command. -/
def switches : Option Command → List Switch
  | none => [.config, .verbose, .version, .help]
  | some .compile =>
    [.output, .className, .selector, .component, .format, .strict, .debug, .stats, .watch, .help]
  | some .check => [.recursive, .help]
  | some .name => [.component, .help]
  | some .expand | some .resolve | some .help => [.help]

/-- The switch of a word at a place of the command line. -/
def switchOfWord? (place : Option Command) (word : String) : Option Switch :=
  (switches place).find? fun s => s.word = word

/-- The switch of a letter at a place of the command line. -/
def switchOfLetter? (place : Option Command) (letter : Char) : Option Switch :=
  (switches place).find? fun s => s.letter? = some letter

end StyleTree.CommandLine
