import StyleTree.Storage.Directory

/-!
# Scripts

What a command does to the world outside, as a value: a script reads, writes and watches files,
looks into directories, prints, warns, complains, and asks for the time, and goes on with the
answers. A script can be
carried out on a working directory that is itself a value, so what it changes can be told exactly.

## Main definitions

* `Script` — scripts, with sequencing
* `Script.run` — a script carried out on a `Desk`
* `Action` — a script that can fail

## Main results

* `run_bind` — carrying out one script after another
-/

namespace StyleTree

/-- A command's steps in the world outside. -/
inductive Script (α : Type) where
  /-- The end, with a result. -/
  | done (a : α)
  /-- Reads the text of a file. -/
  | read (path : String) (next : Except FileError String → Script α)
  /-- Writes a text into a file. -/
  | write (path text : String) (next : Except FileError Unit → Script α)
  /-- Asks whether a path leads to a directory. -/
  | isDirectory (path : String) (next : Bool → Script α)
  /-- Asks for the paths of all files below a directory. -/
  | walk (path : String) (next : List String → Script α)
  /-- Begins to watch a file for changes. -/
  | watch (path : String) (next : Except WatchFailure Unit → Script α)
  /-- Prints a text. -/
  | print (text : String) (next : Script α)
  /-- Warns of a token reference that does not resolve. -/
  | warn (token : Css.Unresolved) (next : Script α)
  /-- Prints a text on the stream for errors. -/
  | complain (text : String) (next : Script α)
  /-- Asks for the time in milliseconds, from any start. -/
  | clock (next : Nat → Script α)

namespace Script

variable {α β : Type}

/-- One script after another. -/
def bind : Script α → (α → Script β) → Script β
  | .done a, f => f a
  | .read path next, f => .read path fun r => (next r).bind f
  | .write path text next, f => .write path text fun r => (next r).bind f
  | .isDirectory path next, f => .isDirectory path fun r => (next r).bind f
  | .walk path next, f => .walk path fun r => (next r).bind f
  | .watch path next, f => .watch path fun r => (next r).bind f
  | .print text next, f => .print text (next.bind f)
  | .warn token next, f => .warn token (next.bind f)
  | .complain text next, f => .complain text (next.bind f)
  | .clock next, f => .clock fun r => (next r).bind f

instance : Monad Script where
  pure := .done
  bind := bind

/-- Everything that a script can change, but for its complaints, which are not kept. -/
structure Desk where
  /-- The working directory. -/
  files : Directory
  /-- What has been printed. -/
  printed : String
  /-- The warnings given. -/
  warnings : List Css.Unresolved

/-- Carries out a script on a desk whose clock stands still. -/
def run (desk : Desk) : Script α → α × Desk
  | .done a => (a, desk)
  | .read path next => run desk (next (desk.files.read path))
  | .write path text next =>
    match desk.files.write path text with
    | .ok files => run ⟨files, desk.printed, desk.warnings⟩ (next (.ok ()))
    | .error e => run desk (next (.error e))
  | .isDirectory path next => run desk (next (desk.files.isDirectory path))
  | .walk path next => run desk (next (desk.files.walk path))
  | .watch path next => run desk (next (desk.files.watch path))
  | .print text next => run ⟨desk.files, desk.printed ++ text, desk.warnings⟩ next
  | .warn token next => run ⟨desk.files, desk.printed, desk.warnings ++ [token]⟩ next
  | .complain _ next => run desk next
  | .clock next => run desk (next 0)

/-- Carrying out one script after another carries out the second on what the first has left. -/
theorem run_bind {desk : Desk} {s : Script α} {f : α → Script β} :
    (s.bind f).run desk = (f (s.run desk).1).run (s.run desk).2 := by
  induction s generalizing desk with
  | done a => rfl
  | read path next ih => exact ih _
  | write path text next ih =>
    simp only [bind, run]
    split <;> exact ih _
  | isDirectory path next ih => exact ih _
  | walk path next ih => exact ih _
  | watch path next ih => exact ih _
  | print text next ih => exact ih
  | warn token next ih => exact ih
  | complain text next ih => exact ih
  | clock next ih => exact ih _

end Script

/-- A script that can fail. -/
abbrev Action (α : Type) := ExceptT StyleError Script α

namespace Action

/-- Prints a line. -/
def line (text : String) : Action Unit :=
  ExceptT.lift (.print (text ++ "\n") (.done ()))

/-- Reads a file; `unreadable` names the failure. -/
def read (path : String) (unreadable : FileError → StyleError) : Action String :=
  ExceptT.mk (.read path fun r => .done (r.mapError unreadable))

/-- Writes a file. -/
def write (path text : String) : Action Unit :=
  ExceptT.mk (.write path text fun r => .done (r.mapError .file))

/-- Warns of token references that do not resolve, in order. -/
def warn (tokens : List Css.Unresolved) : Action Unit :=
  tokens.forM fun token => ExceptT.lift (.warn token (.done ()))

/-- Asks whether a path leads to a directory. -/
def isDirectory (path : String) : Action Bool :=
  ExceptT.lift (.isDirectory path .done)

/-- Asks for the paths of all files below a directory. -/
def walk (path : String) : Action (List String) :=
  ExceptT.lift (.walk path .done)

/-- Begins to watch a file for changes. -/
def watch (path : String) : Action Unit :=
  ExceptT.mk (.watch path fun r => .done (r.mapError fun failure => .file (.other failure.message)))

/-- Prints a line on the stream for errors. -/
def complain (text : String) : Action Unit :=
  ExceptT.lift (.complain (text ++ "\n") (.done ()))

/-- Asks for the time. -/
def clock : Action Nat :=
  ExceptT.lift (.clock .done)

/-- A result that is already known. -/
def ofExcept {α : Type} (r : Except StyleError α) : Action α :=
  ExceptT.mk (.done r)

end Action

end StyleTree
