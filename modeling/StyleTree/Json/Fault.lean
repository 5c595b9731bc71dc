import StyleTree.Number.Layout
import StyleTree.Text.Displayed

/-!
# Faults of a JSON document

Why a document was refused, and where. A broken document has a fault of syntax; a well-formed one
that holds the wrong kind of value has a fault of shape. A place is a line and a column; columns
count the bytes of UTF-8.

## Main definitions

* `Found`, `Wanted` — the value that was met, and what should have been there
* `Cause`, `Cause.isShape` — the reasons for a refusal, and which of them are about shape
* `Fault` — a cause with the place it is reported at
* `Position.at`, `Complaint` — the place in a document, and the cause with it as a message
-/

namespace StyleTree.Json

/-- A value of the wrong kind. -/
inductive Found where
  /-- An integer. -/
  | integer (i : Int)
  /-- A number that is read as a binary64 number. -/
  | float (x : Number)
  /-- A truth value. -/
  | boolean (b : Bool)
  /-- The null value. -/
  | null
  /-- A text. -/
  | text (s : String)
  /-- An array. -/
  | sequence
  /-- An object. -/
  | map
  deriving DecidableEq

/-- The value as a message names it. -/
def Found.message : Found → String
  | .integer i => "integer \x60" ++ toString i ++ "\x60"
  | .float x => "floating point \x60" ++ x.floatText ++ "\x60"
  | .boolean b => "boolean \x60" ++ (if b then "true" else "false") ++ "\x60"
  | .null => "null"
  | .text s => "string " ++ Text.display s
  | .sequence => "sequence"
  | .map => "map"

/-- What a reader asks for. -/
inductive Wanted where
  /-- A value of a style tree. -/
  | styleValue
  /-- A style tree. -/
  | sheet
  /-- A text. -/
  | text
  /-- A truth value. -/
  | boolean
  /-- An array. -/
  | sequence
  /-- An object. -/
  | map
  /-- A configuration. -/
  | configuration
  deriving DecidableEq

/-- What was asked for, as a message names it. -/
def Wanted.message : Wanted → String
  | .styleValue => "a string, a number, or a nested style object"
  | .sheet => "a style object"
  | .text => "a string"
  | .boolean => "a boolean"
  | .sequence => "a sequence"
  | .map => "a map"
  | .configuration => "struct ConfigFile"

/-- Why a document was refused. -/
inductive Cause where
  /-- The document ends inside an array. -/
  | endInList
  /-- The document ends inside an object. -/
  | endInObject
  /-- The document ends inside a text. -/
  | endInText
  /-- The document ends where a value should stand. -/
  | endInValue
  /-- A colon is missing after a key. -/
  | colonMissing
  /-- An element of an array is followed by something else than a comma or the end. -/
  | listSeparatorMissing
  /-- A member of an object is followed by something else than a comma or the end. -/
  | objectSeparatorMissing
  /-- One of the three names is misspelt. -/
  | misspeltName
  /-- No value starts here. -/
  | valueMissing
  /-- A backslash is followed by something that is no escape. -/
  | badEscape
  /-- The digits of a number are not those of a JSON number. -/
  | badNumber
  /-- The number is too large. -/
  | numberTooLarge
  /-- A control character stands unescaped in a text. -/
  | controlCharacter
  /-- A key is no text. -/
  | keyNotText
  /-- An escaped surrogate has no partner of the right kind. -/
  | loneSurrogate
  /-- An escaped leading surrogate is not followed by another escape. -/
  | surrogateUnpaired
  /-- A comma is followed by the end of the array or object. -/
  | trailingComma
  /-- The document continues after its value. -/
  | trailingText
  /-- Too many arrays and objects stand inside each other. -/
  | tooDeep
  /-- The value is of the wrong kind. -/
  | wrongKind (found : Found) (wanted : Wanted)
  /-- A field is given twice. -/
  | duplicateField (field : String)
  /-- An array has too few elements for the fields. -/
  | tooFewElements (count : Nat)
  /-- A token is neither a text nor an object of tokens. -/
  | notToken
  deriving DecidableEq

namespace Cause

/-- Whether the document may be well-formed and only holds the wrong kind of value. -/
def isShape : Cause → Bool
  | .wrongKind _ _ | .duplicateField _ | .tooFewElements _ | .notToken => true
  | _ => false

/-- The cause as a message, without its place. -/
def message : Cause → String
  | .endInList => "EOF while parsing a list"
  | .endInObject => "EOF while parsing an object"
  | .endInText => "EOF while parsing a string"
  | .endInValue => "EOF while parsing a value"
  | .colonMissing => "expected \x60:\x60"
  | .listSeparatorMissing => "expected \x60,\x60 or \x60]\x60"
  | .objectSeparatorMissing => "expected \x60,\x60 or \x60\x7d\x60"
  | .misspeltName => "expected ident"
  | .valueMissing => "expected value"
  | .badEscape => "invalid escape"
  | .badNumber => "invalid number"
  | .numberTooLarge => "number out of range"
  | .controlCharacter => "control character (\\u0000-\\u001F) found while parsing a string"
  | .keyNotText => "key must be a string"
  | .loneSurrogate => "lone leading surrogate in hex escape"
  | .surrogateUnpaired => "unexpected end of hex escape"
  | .trailingComma => "trailing comma"
  | .trailingText => "trailing characters"
  | .tooDeep => "recursion limit exceeded"
  | .wrongKind found wanted =>
    "invalid type: " ++ found.message ++ ", expected " ++ wanted.message
  | .duplicateField field => "duplicate field \x60" ++ field ++ "\x60"
  | .tooFewElements count =>
    "invalid length " ++ toString count ++ ", expected struct ConfigFile with 7 elements"
  | .notToken => "data did not match any variant of untagged enum TokenValue"

end Cause

/-! ### Places -/

/-- The number of bytes of a text in UTF-8. -/
def byteLength (cs : List Char) : Nat :=
  cs.foldr (fun c n => c.utf8Size + n) 0

/-- A place in a document. -/
structure Position where
  /-- The line, from 1. -/
  line : Nat
  /-- The number of bytes before it in the line. -/
  column : Nat
  deriving DecidableEq

/-- The place `bytes` bytes further on. -/
def Position.advance (p : Position) : Nat → List Char → Position
  | _, [] => p
  | 0, _ => p
  | bytes + 1, c :: rest =>
    if c = '\n' then Position.advance ⟨p.line + 1, 0⟩ bytes rest
    else
      Position.advance ⟨p.line, p.column + min (bytes + 1) c.utf8Size⟩
        (bytes + 1 - c.utf8Size) rest

/-- The place before the last `remaining` bytes of a document. -/
def Position.at (document : List Char) (remaining : Nat) : Position :=
  Position.advance ⟨1, 0⟩ (byteLength document - remaining) document

/-- A refusal. The place of a fault of syntax is known at once; that of a fault of shape can depend
on the end of the array or object around it, and waits for the reader of that. -/
inductive Fault where
  /-- A fault before the last `remaining` bytes of the document. -/
  | placed (cause : Cause) (remaining : Nat)
  /-- A fault that was noticed before `rest`. -/
  | waiting (cause : Cause) (rest : List Char)
  deriving DecidableEq

namespace Fault

/-- A fault reported before `rest`. -/
def before (cause : Cause) (rest : List Char) : Fault :=
  .placed cause (byteLength rest)

/-- A fault reported after the first byte of `rest`, or at the end if there is none. -/
def inside (cause : Cause) (rest : List Char) : Fault :=
  .placed cause (byteLength rest - 1)

/-- Gives a waiting fault its place, after as much of the rest as `close` takes off. -/
def settle (close : List Char → List Char) : Fault → Fault
  | .placed cause remaining => .placed cause remaining
  | .waiting cause rest => before cause (close rest)

/-- The reason for the refusal. -/
def cause : Fault → Cause
  | .placed cause _ => cause
  | .waiting cause _ => cause

/-- The number of bytes after the place of the fault. -/
def remaining : Fault → Nat
  | .placed _ remaining => remaining
  | .waiting _ rest => byteLength rest

end Fault

/-- A cause with its place in the document. -/
structure Complaint where
  /-- Why the document was refused. -/
  cause : Cause
  /-- Where. -/
  position : Position
  deriving DecidableEq

namespace Complaint

/-- The complaint about a document. -/
def of (document : List Char) (fault : Fault) : Complaint :=
  ⟨fault.cause, Position.at document fault.remaining⟩

/-- The complaint as a message. -/
def message (c : Complaint) : String :=
  c.cause.message ++ " at line " ++ toString c.position.line ++ " column " ++
    toString c.position.column

end Complaint

end StyleTree.Json
