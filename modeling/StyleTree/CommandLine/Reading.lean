import StyleTree.CommandLine.Usage

/-!
# Reading a command line

The arguments are read from left to right. A switch that takes a value waits for it and takes the
next argument, whatever it looks like, unless that is another switch; it is settled only when the
next switch or operand is reached, or at the end. So of two mistakes the one that is noticed first
is shown, which need not be the one that is further to the left. After two hyphens alone every
argument is an operand.

## Main definitions

* `Reading` — what has been read from a part of a command line
* `Halt` — why reading ends early
* `Reading.settle` — the switch that waits is taken for finished
* `Reading.switch`, `Reading.letters`, `Reading.operand` — one argument
* `Reading.arguments` — the arguments up to the next command
-/

namespace StyleTree.CommandLine

/-- What has been read from the arguments before a command, or from those after it. -/
structure Reading where
  /-- The switches, in order, with their values. -/
  given : List (Switch × Option String) := []
  /-- The last switch, if it takes a value that was not attached to it. -/
  waiting : Option (Switch × Option String) := none
  /-- The operands, in order. -/
  operands : List String := []

/-- Why reading ends before the last argument. -/
inductive Halt where
  /-- The version is asked for. -/
  | version
  /-- The usage of the program or of a command is asked for. -/
  | help (topic : Option Command)
  /-- Something is wrong. -/
  | misuse (error : UsageError)
  deriving DecidableEq

namespace Reading

/-- Whether the last switch still waits for its value. -/
def awaitsValue (r : Reading) : Bool :=
  match r.waiting with
  | some (_, none) => true
  | _ => false

/-- Whether a switch is given. -/
def has (r : Reading) (s : Switch) : Bool := (r.given.lookup s).isSome

/-- The value of a switch, if it is given. -/
def value? (r : Reading) (s : Switch) : Option String := (r.given.lookup s).join

/-- What is wrong with the value of a switch, if anything. -/
def valueError? (s : Switch) (value : Option String) : Option UsageError :=
  match s, value with
  | .format, some name =>
    if name = "" then some (.missingValue s)
    else if (Format.ofName? name).isNone then some (.invalidValue name s)
    else none
  | _, _ => none

/-- Adds a switch with its value. -/
def add (r : Reading) (s : Switch) (value : Option String) : Except Halt Reading :=
  if r.has s ∧ ¬ s.isRepeatable then .error (.misuse (.repeated s))
  else
    match valueError? s value with
    | some e => .error (.misuse e)
    | none => .ok { r with given := r.given ++ [(s, value)] }

/-- Adds the switch that waits. -/
def settle (r : Reading) : Except Halt Reading :=
  match r.waiting with
  | none => .ok r
  | some (s, none) => .error (.misuse (.missingValue s))
  | some (s, some value) => { r with waiting := none }.add s (some value)

/-- Reads a switch, with the value that is attached to it. -/
def switch (place : Option Command) (s : Switch) (attached : Option String) (r : Reading) :
    Except Halt Reading :=
  match s.takesValue, attached with
  | true, some value => r.settle.bind fun r => r.add s (some value)
  | true, none => r.settle.map fun r => { r with waiting := some (s, none) }
  | false, some value => .error (.misuse (.unexpectedValue value s))
  | false, none =>
    r.settle.bind fun r =>
      match s with
      | .version => .error .version
      | .help => .error (.help place)
      | s => r.add s none

/-- Reads what follows two hyphens. -/
def word (place : Option Command) (text : List Char) (r : Reading) : Except Halt Reading :=
  let name := String.ofList (text.takeWhile (· ≠ '='))
  let attached := match text.dropWhile (· ≠ '=') with
    | [] => none
    | _ :: value => some (String.ofList value)
  match switchOfWord? place name with
  | none => .error (.misuse (.unexpectedArgument ("--" ++ name)))
  | some s => r.switch place s attached

/-- Reads what follows one hyphen: the letters of switches, and the value of the last one. -/
def letters (place : Option Command) : List Char → Reading → Except Halt Reading
  | [], r => .ok r
  | c :: cs, r =>
    match switchOfLetter? place c with
    | none => .error (.misuse (.unexpectedArgument (String.ofList ['-', c])))
    | some s =>
      if s.takesValue then
        match cs with
        | [] => r.switch place s none
        | '=' :: value => r.switch place s (some (String.ofList value))
        | value => r.switch place s (some (String.ofList value))
      else (r.switch place s none).bind (letters place cs)

/-- Reads an operand. Before the commands there is none: the name of a command is missing, or it
stands where only operands can. -/
def operand (place : Option Command) (argument : String) (r : Reading) : Except Halt Reading :=
  match place with
  | none =>
    .error (.misuse
      (if (Command.ofWord? argument).isSome then .unexpectedArgument argument
      else .unknownCommand argument))
  | some command =>
    if r.operands.length < command.operands.length then
      r.settle.map fun r => { r with operands := r.operands ++ [argument] }
    else .error (.misuse (.unexpectedArgument argument))

/-- Reads an argument that is no command. -/
def argument (place : Option Command) (argument : String) (r : Reading) : Except Halt Reading :=
  match argument.toList with
  | '-' :: '-' :: text => r.word place text
  | '-' :: c :: cs => r.letters place (c :: cs)
  | _ =>
    match r.waiting with
    | some (s, none) => .ok { r with waiting := some (s, some argument) }
    | _ => r.operand place argument

/-- Reads operands only. -/
def operandsOnly (place : Option Command) : List String → Reading → Except Halt Reading
  | [], r => .ok r
  | a :: rest, r => (r.operand place a).bind (operandsOnly place rest)

/-- Reads arguments; before the commands, up to the first command, which is given with the arguments
after it. -/
def arguments (place : Option Command) :
    List String → Reading → Except Halt (Reading × Option (Command × List String))
  | [], r => .ok (r, none)
  | a :: rest, r =>
    let next? := if place.isNone ∧ ¬ r.awaitsValue then Command.ofWord? a else none
    match next? with
    | some command => .ok (r, some (command, rest))
    | none =>
      if a = "--" then (operandsOnly place rest r).map fun r => (r, none)
      else (r.argument place a).bind (arguments place rest)

end Reading

end StyleTree.CommandLine
