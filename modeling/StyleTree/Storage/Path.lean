import StyleTree.Text.Pieces

/-!
# File paths

A path is a text with slashes between its parts. The file name is the last part that says more than
"here"; a path that ends in a step upwards has none. The extension is what follows the last dot of
the file name, unless that dot comes first.

## Main definitions

* `Path.splitName?` — what stands before the file name, the name, and what follows it
* `Path.extension?` — the extension of a path
* `Path.withExtension` — the path with another extension
* `Path.join` — the path of an entry of a directory
-/

namespace StyleTree.Path

/-- The parts of a path between its slashes. -/
def parts (path : String) : List String :=
  (Text.pieces '/' path.toList).map String.ofList

/-- The path with the given parts. -/
def ofParts (parts : List String) : String :=
  "/".intercalate parts

/-- Whether a part of a path stays where it is. -/
def isHere (part : String) : Bool := part = "" || part = "."

/-- The parts before the file name, the file name, and the parts after it, all of which stay where
they are. -/
def splitName? (path : String) : Option (List String × String × List String) :=
  let reversed := (parts path).reverse
  let after := reversed.takeWhile isHere
  match reversed.dropWhile isHere with
  | [] => none
  | name :: before => if name = ".." then none else some (before.reverse, name, after.reverse)

/-- The parts of a file name before and after its last dot, if that is not its first character. -/
def splitExtension? (name : String) : Option (String × String) :=
  let reversed := name.toList.reverse
  let extension := reversed.takeWhile (· ≠ '.')
  match reversed.dropWhile (· ≠ '.') with
  | [] => none
  | _ :: stem =>
    if stem = [] then none
    else some (String.ofList stem.reverse, String.ofList extension.reverse)

/-- The extension of a path. -/
def extension? (path : String) : Option String :=
  (splitName? path).bind fun (_, name, _) => (splitExtension? name).map Prod.snd

/-- The path with another extension in place of its own, or with an extension if it has none. What
follows the file name is dropped. A path without a file name stays as it is, and of a file name
whose stem is a single dot two dots are left, which is no file name any more. -/
def withExtension (path extension : String) : String :=
  match splitName? path with
  | none => path
  | some (before, name, after) =>
    match splitExtension? name with
    | none => ofParts (before ++ [name ++ "." ++ extension])
    | some (stem, _) =>
      if stem = "." ∧ after = [] then ofParts (before ++ [".."])
      else ofParts (before ++ [stem ++ "." ++ extension])

/-- The path of an entry of a directory. -/
def join (directory name : String) : String :=
  if directory.toList.getLast? = some '/' then directory ++ name else directory ++ "/" ++ name

end StyleTree.Path
