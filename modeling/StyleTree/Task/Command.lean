import StyleTree.CommandLine.Request
import StyleTree.Number.Fixed
import StyleTree.Task.Watch

/-!
# Commands

What each command does and prints, and what a run of the program comes to.

## Main definitions

* `Stats.json` — the statistics of a compilation as a JSON document
* `Task.reportCompiled`, `Task.reportStats`, `Task.reportFormat` — what is printed about a
  compilation
* `Job.ofRequest` — the compilation that a request asks for
* `Task.compileOnce`, `Task.compile`, `Task.check`, `Task.resolve` — the commands with a report of
  their own
* `Task.ofRequest`, `Task.ofInvocation` — what a request and an invocation do
* `Exit`, `program` — a run of the program from its arguments to its end, or to the point where it
  waits for changes of a document
-/

namespace StyleTree

open CommandLine (CompileRequest Format Invocation Request)
open Text (quote)

/-- The statistics of a compilation as an indented JSON document. -/
def Stats.json (stats : Stats) (milliseconds : Nat) : String :=
  let members := [
    ("source_size", toString stats.sourceSize),
    ("output_size", toString stats.outputSize),
    ("class_name", (stats.className.map quote).getD "null"),
    ("selector", quote stats.selector),
    ("rule_count", toString stats.ruleCount),
    ("declaration_count", toString stats.declarationCount),
    ("unresolved_tokens", toString stats.unresolvedCount),
    ("compile_time_ms", toString milliseconds)]
  "\x7b\n" ++ ",\n".intercalate (members.map fun m => "  " ++ quote m.1 ++ ": " ++ m.2) ++ "\n\x7d"

namespace Task

/-- The options of a command: those of the configuration, with the choices of the command. -/
def options (config : Config) (selector component : Option String) (strict : Bool) : Options where
  family := config.family.getD defaultFamily
  component := component
  selector := selector
  strict := strict || config.strict.getD false

/-- Prints what a compilation has come to. -/
def reportCompiled (stats : Stats) (milliseconds : Nat) : Action Unit := do
  Action.line "✅ Compilation successful!"
  if let some name := stats.className then
    Action.line ("   Class: " ++ name)
  Action.line ("   Output: " ++ toString stats.outputSize ++ " bytes")
  Action.line ("   Time: " ++ toString milliseconds ++ "ms")
  if stats.unresolvedCount > 0 then
    Action.line ("   ⚠️  Unresolved tokens: " ++ toString stats.unresolvedCount)

/-- Prints the statistics of a compilation. -/
def reportStats (stats : Stats) (milliseconds : Nat) : Action Unit := do
  Action.line ""
  Action.line "📊 Compilation Statistics:"
  Action.line ("   Source size: " ++ toString stats.sourceSize ++ " bytes")
  Action.line ("   Output size: " ++ toString stats.outputSize ++ " bytes")
  Action.line ("   Selector: " ++ stats.selector)
  Action.line ("   Rules: " ++ toString stats.ruleCount)
  Action.line ("   Declarations: " ++ toString stats.declarationCount)
  Action.line ("   Unresolved tokens: " ++ toString stats.unresolvedCount)
  Action.line ("   Compile time: " ++ toString milliseconds ++ "ms")

/-- Prints what a format shows of a compilation into a file. -/
def reportFormat (output : String) (stats : Stats) (milliseconds : Nat) : Format → Action Unit
  | .css => return
  | .json => Action.line (stats.json milliseconds)
  | .debug => do Action.line (← Action.read output .file)

end Task

/-- The compilation that a request asks for under a configuration; the output is by default the file
beside the document. -/
def Job.ofRequest (config : Config) (r : CompileRequest) : Job where
  input := r.input
  output := r.output.getD (Path.withExtension r.input "css")
  ctx := config.context
  options := Task.options config r.selector r.component r.strict

namespace Task

/-- Compiles a style document and reports about it. -/
def compileOnce (job : Job) (r : CompileRequest) : Action Unit := do
  Action.line ("🔨 Compiling " ++ job.input ++ " -> " ++ job.output)
  let start ← Action.clock
  let stats ← job.compile
  let milliseconds := (← Action.clock) - start
  reportCompiled stats milliseconds
  if r.stats then
    reportStats stats milliseconds
  reportFormat job.output stats milliseconds r.format

/-- Compiles a style document, and says what is watched from then on, if anything. -/
def compile (config : Config) (r : CompileRequest) : Action (Option Job) := do
  let job := Job.ofRequest config r
  if r.watch then
    job.watch
    return some job
  else
    compileOnce job r
    return none

/-- The share of files without errors in percent, by two roundings of a quotient. -/
def successRate (total failed : Nat) : Number :=
  ((Number.ofNat (total - failed)).div (Number.ofNat total)).mul (Number.ofNat 100)

/-- Checks all style documents below a directory and reports about them. -/
def checkDirectory (path : String) (ctx : Context) : Action Unit := do
  let documents := (← Action.walk path).filter isDocument
  let failed ← checkFiles ctx documents
  Action.line ""
  Action.line "📊 Check Summary:"
  Action.line ("   Total files: " ++ toString documents.length)
  Action.line ("   Files with errors: " ++ toString failed)
  if documents.length > 0 then
    Action.line
      ("   Success rate: " ++ (successRate documents.length failed).fixedText 1 ++ "%")
  if failed > 0 then
    throw (.failedFiles failed)

/-- Checks a style document, or all below a directory. -/
def check (path : String) (recursive : Bool) (ctx : Context) : Action Unit := do
  let directory ← if recursive then Action.isDirectory path else pure false
  if directory then checkDirectory path ctx else reportCheck path ctx

/-- The value of a token reference. -/
def resolve (property reference : String) (ctx : Context) : Except StyleError String :=
  match ctx.resolve? property reference with
  | some value => .ok value
  | none => .error (.unresolved ⟨property, reference⟩)

/-- What a request does under a configuration, and what is watched from then on, if anything. -/
def ofRequest (config : Config) : Request → Action (Option Job)
  | .compile r => compile config r
  | .check input recursive => do
    check input recursive config.context
    return none
  | .expand input => do
    Action.line (← expandFile input config.context)
    return none
  | .name input component => do
    Action.line (← nameFile input config.context (options config none component false))
    return none
  | .resolve property reference => do
    Action.line (← Action.ofExcept (resolve property reference config.context))
    return none

/-- What an invocation does, and what is watched from then on, if anything. -/
def ofInvocation (i : Invocation) : Action (Option Job) := do
  let config ← match i.config with
    | none => pure {}
    | some path => loadConfig path
  match i.request with
  | some request => ofRequest config request
  | none =>
    Action.line "No subcommand specified. Use --help for usage information."
    return none

end Task

/-- What a run of the program comes to. -/
inductive Exit where
  /-- Everything that was asked for is done. -/
  | success
  /-- Something went wrong. -/
  | failure (error : StyleError)
  /-- The arguments make no sense. -/
  | misuse (error : CommandLine.UsageError)
  /-- A document is watched, until there are no more notices of changes. -/
  | watching (job : Job)
  deriving DecidableEq

namespace Exit

/-- The exit code of the program, at the end of watching if a document is watched. -/
def code : Exit → Nat
  | .success | .watching _ => 0
  | .failure _ => 1
  | .misuse _ => 2

/-- What is said about the end, if anything. -/
def complaint? : Exit → Option String
  | .success | .watching _ => none
  | .failure error => some ("Error: " ++ error.message)
  | .misuse error => some ("error: " ++ error.message)

end Exit

/-- The name of the program with its version. -/
def versionText : String := "stylec 0.1.0"

/-- A run of the program. -/
def program (arguments : List String) : Script Exit :=
  match CommandLine.Invocation.ofArguments arguments with
  | .error .version => .print (versionText ++ "\n") (.done .success)
  | .error (.help topic) => .print (CommandLine.usage topic ++ "\n") (.done .success)
  | .error (.misuse error) => .done (.misuse error)
  | .ok invocation => do
    match ← (Task.ofInvocation invocation).run with
    | .ok none => return .success
    | .ok (some job) => return .watching job
    | .error error => return .failure error

end StyleTree
