import StyleTree.Task.Command

/-!
# The program

The outermost layer: carries out a script on the files, the streams and the clock of the system.
-/

namespace StyleTree.Terminal

/-- The reason that a system code stands for; some calls give the code with the opposite sign. -/
def reasonOfCode (code : UInt32) : FileError :=
  match min code (0 - code) with
  | 2 => .notFound
  | 13 => .permissionDenied
  | 20 => .notDirectory
  | 21 => .isDirectory
  | 36 => .nameTooLong
  | code => .other ("Unknown error (os error " ++ toString code ++ ")")

/-- The reason why the system refuses a file. -/
def fileError : IO.Error → FileError
  | .noFileOrDirectory _ code _ | .permissionDenied _ code _ | .inappropriateType _ code _
  | .invalidArgument _ code _ | .resourceExhausted _ code _ | .alreadyExists _ code _
  | .noSuchThing _ code _ | .otherError code _ | .unsupportedOperation code _ =>
    reasonOfCode code
  | e => .other (toString e)

/-- Reads the text of a file. -/
def readText (path : String) : IO (Except FileError String) := do
  try
    match String.fromUTF8? (← IO.FS.readBinFile path) with
    | some text => return .ok text
    | none => return .error .notText
  catch e => return .error (fileError e)

/-- Writes a text into a file. -/
def writeText (path text : String) : IO (Except FileError Unit) := do
  try
    IO.FS.writeFile path text
    return .ok ()
  catch e => return .error (fileError e)

/-- Whether a path leads to a directory. -/
def isDirectory (path : String) : IO Bool := do
  try (← IO.FS.realPath path).isDir
  catch _ => return false

/-- The paths of all files below a directory. Links are not followed. -/
partial def walk (path : String) : IO (List String) := do
  let mut found := []
  for entry in ← (← IO.FS.realPath path).readDir do
    let child := Path.join path entry.fileName
    match (← entry.path.symlinkMetadata).type with
    | .dir => found := found ++ (← walk child)
    | .file => found := found ++ [child]
    | _ => continue
  return found

/-- The time at which a file was changed last, if it is there. -/
def lastChange (path : String) : IO (Option IO.FS.SystemTime) := do
  try return some (← (← IO.FS.realPath path).metadata).modified
  catch _ => return none

/-- Makes sure that there is something to watch. -/
def watch (path : String) : IO (Except WatchFailure Unit) := do
  try
    let _ ← (← IO.FS.realPath path).metadata
    return .ok ()
  catch e => return .error (.refused (fileError e).message)

/-- Carries out a script. -/
def perform {α : Type} : Script α → IO α
  | .done a => return a
  | .read path next => do perform (next (← readText path))
  | .write path text next => do perform (next (← writeText path text))
  | .isDirectory path next => do perform (next (← isDirectory path))
  | .walk path next => do perform (next (← walk path))
  | .watch path next => do perform (next (← watch path))
  | .print text next => do
    IO.print text
    perform next
  | .warn token next => do
    IO.eprintln ("WARN " ++ StyleError.unresolvedMessage token)
    perform next
  | .complain text next => do
    IO.eprint text
    perform next
  | .clock next => do perform (next (← IO.monoMsNow))

/-- Looks at a watched document ten times a second, and answers its changes. -/
def keepWatching (job : Job) : IO Unit := do
  let mut seen ← lastChange job.input
  repeat
    IO.sleep 100
    let now ← lastChange job.input
    if now != seen then
      seen := now
      if let .ok false ← perform (job.answer .changed).run then
        break

end StyleTree.Terminal

/-- Runs the program on its arguments. -/
def main (arguments : List String) : IO UInt32 := do
  let exit ← StyleTree.Terminal.perform (StyleTree.program arguments)
  if let .watching job := exit then
    StyleTree.Terminal.keepWatching job
  if let some complaint := exit.complaint? then
    IO.eprintln complaint
  return exit.code.toUInt32
