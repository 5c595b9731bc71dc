import StyleTree.Task.Basic

/-!
# Watching a document

A style document can be watched and compiled again after every change. The watcher gives notice of
the changes, and each notice is answered by itself: a compilation that fails is complained about,
and the watching goes on. It ends only with the watcher.

## Main definitions

* `Job` — a compilation from a document into a file
* `Notice` — what the watcher tells
* `Job.watch` — the begin of watching, with a first compilation
* `Job.answer` — what is done about a notice
-/

namespace StyleTree

/-- A compilation from a style document into a file. -/
structure Job where
  /-- The style document. -/
  input : String
  /-- The file to write. -/
  output : String
  /-- The tables for the compilation. -/
  ctx : Context
  /-- What is chosen for it. -/
  options : Options
  deriving DecidableEq

/-- What the watcher of a file tells. -/
inductive Notice where
  /-- The file has changed. -/
  | changed
  /-- There will be no further notice. -/
  | ended (reason : String)

namespace Job

/-- Compiles the document into the file. -/
def compile (job : Job) : Action Stats :=
  Task.compileFile job.input job.output job.ctx job.options

/-- Begins to watch the document, and compiles it whatever comes of it. -/
def watch (job : Job) : Action Unit := do
  Action.line ("👀 Watching " ++ job.input ++ " for changes...")
  Action.watch job.input
  match ← ExceptT.lift job.compile.run with
  | .ok _ => Action.line "✅ Initial compilation successful"
  | .error e => Action.complain ("❌ Initial compilation failed: " ++ e.message)

/-- Compiles the document again, and reports about it. -/
def recompile (job : Job) : Action Unit := do
  Action.line "🔄 File changed, recompiling..."
  let start ← Action.clock
  match ← ExceptT.lift job.compile.run with
  | .ok stats =>
    let milliseconds := (← Action.clock) - start
    Action.line ("✅ Recompiled successfully (" ++ toString stats.outputSize ++ " bytes, " ++
      toString milliseconds ++ "ms)")
  | .error e => Action.complain ("❌ Compilation failed: " ++ e.message)

/-- Answers a notice, and says whether the watching goes on. -/
def answer (job : Job) : Notice → Action Bool
  | .changed => do
    job.recompile
    return true
  | .ended reason => do
    Action.complain ("Watch error: " ++ reason)
    return false

end Job

end StyleTree
