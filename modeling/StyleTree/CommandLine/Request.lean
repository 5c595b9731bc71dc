import StyleTree.CommandLine.Reading

/-!
# Requests

What the program is asked to do: a command with everything that was chosen for it.

## Main definitions

* `CompileRequest`, `Request` — what a command is to do
* `Invocation` — a request with the configuration for it
* `Invocation.ofArguments` — the invocation of a command line
-/

namespace StyleTree.CommandLine

/-- What to compile, and how. -/
structure CompileRequest where
  /-- The style document. -/
  input : String
  /-- The file to write, if it is given. -/
  output : Option String
  /-- The selector to compile under, if it is given. -/
  selector : Option String
  /-- The component in a generated class name. -/
  component : Option String
  /-- What to print at the end. -/
  format : Format
  /-- Whether references must resolve, whatever the configuration says. -/
  strict : Bool
  /-- Whether to print statistics. -/
  stats : Bool
  /-- Whether to watch the document and to compile it again after every change. -/
  watch : Bool

/-- What a command is to do. -/
inductive Request where
  /-- Compiles a style document into a file. -/
  | compile (r : CompileRequest)
  /-- Checks a style document, or all below a directory. -/
  | check (input : String) (recursive : Bool)
  /-- Prints a style document without shorthands. -/
  | expand (input : String)
  /-- Prints the class name of a style document. -/
  | name (input : String) (component : Option String)
  /-- Prints the value of a token reference. -/
  | resolve (property reference : String)

/-- What the program is asked to do. -/
structure Invocation where
  /-- The configuration to use, if it is given. -/
  config : Option String
  /-- What to do, if there is a command. -/
  request : Option Request

/-- The selector that is chosen by a class or in full. -/
def Reading.chosenSelector? (r : Reading) : Option String :=
  match r.value? .className with
  | some name => some ("." ++ name)
  | none => r.value? .selector

/-- What is to be compiled, and how. -/
def CompileRequest.ofReading (input : String) (r : Reading) : CompileRequest where
  input := input
  output := r.value? .output
  selector := r.chosenSelector?
  component := r.value? .component
  format := ((r.value? .format).bind Format.ofName?).getD .css
  strict := r.has .strict
  stats := r.has .stats
  watch := r.has .watch

/-- Refuses a class together with a selector; the one that is given first is named first. -/
def Reading.checkExcluded (r : Reading) : Except Halt Unit :=
  if r.has .className ∧ r.has .selector then
    let (s, other) := match r.given.find? fun e => e.1 = .className ∨ e.1 = .selector with
      | some (.selector, _) => (Switch.selector, Switch.className)
      | _ => (Switch.className, Switch.selector)
    .error (.misuse (.excluded s other))
  else .ok ()

/-- What the command is to do, by the arguments after it. -/
def Request.ofReading (command : Command) (r : Reading) : Except Halt Request :=
  match command, r.operands with
  | .compile, [input] => .ok (.compile (.ofReading input r))
  | .check, [input] => .ok (.check input (r.has .recursive))
  | .expand, [input] => .ok (.expand input)
  | .name, [input] => .ok (.name input (r.value? .component))
  | .resolve, [property, reference] => .ok (.resolve property reference)
  | .help, _ => .error (.help none)
  | command, operands =>
    .error (.misuse (.missingOperands (command.operands.drop operands.length)))

/-- What usage is asked for by the words after the command for help. -/
def helpTopic : List String → Halt
  | [] => .help none
  | word :: rest =>
    match Command.ofWord? word, rest with
    | none, _ => .misuse (.unknownCommand word)
    | some command, [] => .help (some command)
    | some _, word :: _ => .misuse (.unknownCommand word)

/-- What the command is to do. -/
def Request.ofArguments (command : Command) (arguments : List String) : Except Halt Request :=
  if command = .help then .error (helpTopic arguments)
  else do
    let (r, _) ← Reading.arguments (some command) arguments {}
    let r ← r.settle
    r.checkExcluded
    Request.ofReading command r

/-- What the program is asked to do. -/
def Invocation.ofArguments (arguments : List String) : Except Halt Invocation := do
  let (r, command?) ← Reading.arguments none arguments {}
  let request ← match command? with
    | none => pure none
    | some (command, rest) => some <$> Request.ofArguments command rest
  let r ← r.settle
  return ⟨r.value? .config, request⟩

end StyleTree.CommandLine
