import StyleTree.Css.Writer
import StyleTree.Json.Fault

/-!
# Errors

Everything that can go wrong between a style document and a written style sheet, by its cause, with
the message that is shown for it.

## Main definitions

* `FileError` — why a file cannot be read or written
* `WatchFailure` — why a file is not watched for changes
* `StyleError` — why a style document is not compiled
* `StyleError.kind`, `StyleError.message` — the kind of an error, and its text
-/

namespace StyleTree

/-- Why a file cannot be read or written. -/
inductive FileError where
  /-- The file, or a directory on the way to it, does not exist. -/
  | notFound
  /-- A file stands where a directory is needed. -/
  | notDirectory
  /-- A directory stands where a file is needed. -/
  | isDirectory
  /-- The bytes of the file are not UTF-8. -/
  | notText
  /-- The path or one of its parts is too long. -/
  | nameTooLong
  /-- The path holds a null character. -/
  | nulInPath
  /-- The access is not allowed. -/
  | permissionDenied
  /-- Any other reason, in the words of the system. -/
  | other (message : String)
  deriving DecidableEq

/-- The reason in the words of the system. -/
def FileError.message : FileError → String
  | .notFound => "No such file or directory (os error 2)"
  | .notDirectory => "Not a directory (os error 20)"
  | .isDirectory => "Is a directory (os error 21)"
  | .notText => "stream did not contain valid UTF-8"
  | .nameTooLong => "File name too long (os error 36)"
  | .nulInPath => "file name contained an unexpected NUL byte"
  | .permissionDenied => "Permission denied (os error 13)"
  | .other message => message

/-- Why a file is not watched for changes, with a reason in the words of the system. -/
inductive WatchFailure where
  /-- There is no watcher at all. -/
  | noWatcher (reason : String)
  /-- The watcher refuses the file. -/
  | refused (reason : String)
  deriving DecidableEq

/-- The failure as a text. -/
def WatchFailure.message : WatchFailure → String
  | .noWatcher reason => "Failed to create file watcher: " ++ reason
  | .refused reason => "Failed to watch file: " ++ reason

/-- Why a style document is not compiled, or a configuration not used. -/
inductive StyleError where
  /-- A style document cannot be read. -/
  | unreadable (path : String) (reason : FileError)
  /-- A configuration cannot be read. -/
  | unreadableConfig (path : String) (reason : FileError)
  /-- Any other access to a file fails. -/
  | file (reason : FileError)
  /-- A style document is no JSON document. -/
  | malformed (filename : String) (complaint : Json.Complaint)
  /-- A style document holds the wrong kind of value. -/
  | misshapen (filename : String) (complaint : Json.Complaint)
  /-- A configuration is no JSON document of the right shape. -/
  | badJsonConfig (path : String) (complaint : Json.Complaint)
  /-- A configuration is no TOML document of the right shape. -/
  | badTomlConfig (path : String)
  /-- The name of a configuration ends in neither format. -/
  | unknownConfigFormat
  /-- A token reference does not resolve. -/
  | unresolved (token : Css.Unresolved)
  /-- Some of several files have errors. -/
  | failedFiles (count : Nat)
  deriving DecidableEq

/-- The kinds of errors. -/
inductive ErrorKind where
  /-- An access to a file failed. -/
  | io
  /-- A JSON document is broken. -/
  | json
  /-- A TOML document is broken. -/
  | toml
  /-- A token reference does not resolve. -/
  | unresolvedToken
  /-- A file cannot be read. -/
  | fileNotFound
  /-- A document has the wrong shape. -/
  | invalidFormat
  deriving DecidableEq

namespace StyleError

/-- The kind of an error. -/
def kind : StyleError → ErrorKind
  | .unreadable _ _ | .unreadableConfig _ _ => .fileNotFound
  | .file _ => .io
  | .malformed _ _ | .badJsonConfig _ _ => .json
  | .badTomlConfig _ => .toml
  | .unresolved _ => .unresolvedToken
  | .misshapen _ _ | .unknownConfigFormat | .failedFiles _ => .invalidFormat

/-- The text of a token reference that does not resolve. -/
def unresolvedMessage (token : Css.Unresolved) : String :=
  "Unresolved token '" ++ token.reference ++ "' for property '" ++ token.property ++ "'"

/-- The text of an error. -/
def message : StyleError → String
  | .unreadable path reason => "File not found: " ++ path ++ ": " ++ reason.message
  | .unreadableConfig path reason =>
    "File not found: Config file " ++ path ++ ": " ++ reason.message
  | .file reason => "IO error: " ++ reason.message
  | .malformed filename complaint => "JSON error in " ++ filename ++ ": " ++ complaint.message
  | .misshapen filename complaint => "Invalid format: " ++ filename ++ ": " ++ complaint.message
  | .badJsonConfig path complaint =>
    "JSON error in " ++ path ++ ": Invalid JSON config: " ++ complaint.message
  | .badTomlConfig path => "TOML error in " ++ path ++ ": Invalid TOML config:"
  | .unknownConfigFormat => "Invalid format: Config file must be .json or .toml format"
  | .unresolved token => unresolvedMessage token
  | .failedFiles count => "Invalid format: " ++ toString count ++ " files have errors"

end StyleError

end StyleTree
