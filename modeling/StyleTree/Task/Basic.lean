import StyleTree.Compile
import StyleTree.Config.Document
import StyleTree.Storage.Script

/-!
# Tasks on files

What the program does with style documents in files. Compiling a file touches nothing but its
output, and that only when everything else has succeeded.

## Main definitions

* `Task.loadSheet`, `Task.loadConfig` — a style tree or a configuration from its file
* `Task.compileFile` — a style document compiled into a file
* `Task.checkFile` — a style document compiled in strict mode, without an output
* `Task.expandFile`, `Task.nameFile` — the expanded form and the class name of a style document
* `Task.checkFiles` — every file of a list checked, with a count of those that have errors
-/

namespace StyleTree.Task

/-- The text of a style document. -/
def readSource (path : String) : Action String :=
  Action.read path (.unreadable path)

/-- The style tree in a file. -/
def loadSheet (path : String) : Action Sheet := do
  let source ← readSource path
  Action.ofExcept (Sheet.ofDocument source path)

/-- The configuration in a file. -/
def loadConfig (path : String) : Action Config := do
  let source ← Action.read path (.unreadableConfig path)
  Action.ofExcept (Config.ofDocument source path)

/-- Compiles a text, with a warning for every reference that does not resolve, also if that is an
error. -/
def compileText (source filename : String) (ctx : Context) (options : Options) :
    Action Compiled := do
  let compiled ← Action.ofExcept (draftSource source filename ctx options)
  Action.warn compiled.unresolved
  Action.ofExcept (checkResolved options.strict compiled.unresolved)
  return compiled

/-- Compiles a style document into a file. -/
def compileFile (input output : String) (ctx : Context) (options : Options) : Action Stats := do
  let source ← readSource input
  let compiled ← compileText source input ctx options
  Action.write output compiled.css
  return compiled.stats

/-- Compiles a style document in strict mode, without writing a file. -/
def checkFile (path : String) (ctx : Context) : Action Stats := do
  let source ← readSource path
  let compiled ← compileText source path ctx { strict := true }
  return compiled.stats

/-- The style tree in a file, without shorthands, as an indented JSON document. -/
def expandFile (path : String) (ctx : Context) : Action String := do
  let es ← loadSheet path
  return (ctx.expand es).prettyJson

/-- The class name of the style tree in a file. -/
def nameFile (path : String) (ctx : Context) (options : Options) : Action String := do
  let es ← loadSheet path
  return (ctx.expand es).className options.family options.component

/-- Checks a file and prints what was found. -/
def reportCheck (path : String) (ctx : Context) : Action Unit := do
  Action.line ("🔍 Checking " ++ path)
  match ← ExceptT.lift (checkFile path ctx).run with
  | .ok _ => Action.line ("✅ " ++ path ++ " - No issues found")
  | .error e =>
    Action.line ("❌ " ++ path ++ " - " ++ e.message)
    throw e

/-- Checks files one after another, whatever is found, and counts those with errors. -/
def checkFiles (ctx : Context) : List String → Action Nat
  | [] => return 0
  | path :: rest => do
    let failed ← ExceptT.lift (reportCheck path ctx).run
    let others ← checkFiles ctx rest
    return match failed with
      | .ok _ => others
      | .error _ => others + 1

/-- Whether a file is a style document, by its name. -/
def isDocument (path : String) : Bool := Path.extension? path = some "json"

end StyleTree.Task
