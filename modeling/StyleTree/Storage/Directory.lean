import StyleTree.Entries
import StyleTree.Error
import StyleTree.Storage.Path

/-!
# Directories

A working directory as a value: files and directories by name, with the rules by which a path leads
to one of them. A path can lead out of the working directory; of what is there nothing is known but
the directories above, so nothing can be read or written there.

## Main definitions

* `Item`, `Directory` — a file or a directory, and the working directory
* `Directory.files` — all files below a directory, by their paths
* `Directory.place` — where a path leads
* `Directory.read`, `Directory.write`, `Directory.isDirectory`, `Directory.walk`,
  `Directory.watch` — access by path

## Main results

* `Item.at?_put` — a written file is found where it was written
-/

namespace StyleTree

/-- What a file holds. -/
inductive Contents where
  /-- A text. -/
  | text (s : String)
  /-- Bytes that are not UTF-8. -/
  | binary (bytes : List UInt8)
  deriving DecidableEq

/-- A file or a directory. -/
inductive Item where
  /-- A file. -/
  | file (contents : Contents)
  /-- A directory, with its entries by name. -/
  | directory (entries : List (String × Item))

/-- The entries of the working directory. -/
abbrev Directory := Entries Item

namespace Item

/-- The entries of a directory; a file has none. -/
def entries : Item → Directory
  | .file _ => []
  | .directory entries => entries

/-- The item at a path of names. -/
def at? : List String → Item → Option Item
  | [], item => some item
  | name :: path, item => (Entries.get? name item.entries).bind (at? path)

/-- Puts an item at a path of names; directories on the way are made if they are missing. -/
def put (new : Item) : List String → Item → Item
  | [], _ => new
  | name :: path, item =>
    let child := (Entries.get? name item.entries).getD (.directory [])
    .directory (Entries.insert name (put new path child) item.entries)

/-- What was put at a path is found there. -/
theorem at?_put {new item : Item} {path : List String} :
    (put new path item).at? path = some new := by
  induction path generalizing item with
  | nil => rfl
  | cons name path ih => simp [put, at?, entries, Entries.get?_insert, ih]

end Item

mutual

/-- The files in an item, each with its path. -/
def Item.files (path : String) : Item → List (String × Contents)
  | .file contents => [(path, contents)]
  | .directory entries => Directory.files path entries

/-- The files below a directory, each with its path. -/
def Directory.files (path : String) : List (String × Item) → List (String × Contents)
  | [] => []
  | (name, item) :: rest => item.files (Path.join path name) ++ Directory.files path rest

end

/-- Where a path leads. -/
inductive Place where
  /-- To a directory outside the working directory. -/
  | outside
  /-- To the item at a path of names. -/
  | inside (names : List String)
  deriving DecidableEq

namespace Directory

/-- The greatest number of bytes in a name. -/
def greatestName : Nat := 255

/-- The greatest number of bytes in a path. -/
def greatestPath : Nat := 4095

/-- One step of a path from a place. -/
def step (d : Directory) (place : Place) (part : String) : Except FileError Place :=
  let checkName : Except FileError Unit :=
    if greatestName < part.utf8ByteSize then .error .nameTooLong else .ok ()
  match place with
  | .outside =>
    if Path.isHere part ∨ part = ".." then .ok .outside
    else checkName.bind fun _ => .error .notFound
  | .inside names =>
    match (Item.directory d).at? names with
    | none => .error .notFound
    | some (.file _) => .error .notDirectory
    | some (.directory entries) =>
      if Path.isHere part then .ok place
      else if part = ".." then
        .ok (if names = [] then .outside else .inside names.dropLast)
      else checkName.bind fun _ =>
        if (Entries.get? part entries).isSome then .ok (.inside (names ++ [part]))
        else .error .notFound

/-- Where the parts of a path lead from a place. -/
def follow (d : Directory) (place : Place) : List String → Except FileError Place
  | [] => .ok place
  | part :: rest => (d.step place part).bind fun place => d.follow place rest

/-- The place where a path starts; a path that cannot name any file has none. -/
def start (path : String) : Except FileError Place :=
  if path.toList.contains '\x00' then .error .nulInPath
  else if path = "" then .error .notFound
  else if greatestPath < path.utf8ByteSize then .error .nameTooLong
  else .ok (if path.toList.head? = some '/' then .outside else .inside [])

/-- Where a path leads. -/
def place (d : Directory) (path : String) : Except FileError Place :=
  (start path).bind fun place => d.follow place (Path.parts path)

/-- The text of a file. -/
def read (d : Directory) (path : String) : Except FileError String :=
  (d.place path).bind fun
    | .outside => .error .isDirectory
    | .inside names =>
      match (Item.directory d).at? names with
      | some (.file (.text s)) => .ok s
      | some (.file (.binary _)) => .error .notText
      | some (.directory _) => .error .isDirectory
      | none => .error .notFound

/-- Whether a path leads to a directory. -/
def isDirectory (d : Directory) (path : String) : Bool :=
  match d.place path with
  | .error _ => false
  | .ok .outside => true
  | .ok (.inside names) =>
    match (Item.directory d).at? names with
    | some (.directory _) => true
    | _ => false

/-- The directory with a text in a file, which is made if it is missing, unlike the directories
around it. -/
def write (d : Directory) (path text : String) : Except FileError Directory :=
  let parts := Path.parts path
  let named := (parts.reverse.dropWhile (· = "")).reverse
  match named.getLast? with
  | none => (start path).bind fun _ => .error .isDirectory
  | some last =>
    (start path).bind fun place =>
    (d.follow place (named.dropLast ++ ["."])).bind fun parent =>
    if Path.isHere last ∨ last = ".." then
      (d.step parent last).bind fun _ => .error .isDirectory
    else if named.length < parts.length then .error .isDirectory
    else if greatestName < last.utf8ByteSize then .error .nameTooLong
    else
      match parent with
      | .outside => .error .permissionDenied
      | .inside names =>
        match (Item.directory d).at? (names ++ [last]) with
        | some (.directory _) => .error .isDirectory
        | _ => .ok (Item.put (.file (.text text)) (names ++ [last]) (.directory d)).entries

/-- The paths of the files below a path that leads to a directory. -/
def walk (d : Directory) (path : String) : List String :=
  match d.place path with
  | .ok (.inside names) =>
    match (Item.directory d).at? names with
    | some (.directory entries) => (files path entries).map Prod.fst
    | _ => []
  | _ => []

/-- Begins to watch what a path leads to, which has to be there. -/
def watch (d : Directory) (path : String) : Except WatchFailure Unit :=
  match d.place path with
  | .ok _ => .ok ()
  | .error reason => .error (.refused reason.message)

end Directory

end StyleTree
