import StyleTree.Proofs.Storage.Writing

/-!
# The steps of a script

Two scripts can have the same outcome and still differ in what is done on the way: in the files that
are looked at, in what is printed, in the order. The steps of a script in a file system tell all of
that. Those of a sequence are the steps of its parts, one after another, and what is printed on a
desk is what the steps print.

## Main definitions

* `Step` — a single access to the world outside
* `Script.stepsOn`, `Action.stepsOn` — all that is done in a file system, in order

## Main results

* `Script.stepsOn_bind` — the steps of a sequence
* `Script.printed_run` — what a script prints on a desk
-/

namespace StyleTree

/-- A single access to the world outside. -/
inductive Step where
  /-- A file is read. -/
  | read (path : String)
  /-- A text is written into a file, or the attempt is made. -/
  | write (path text : String)
  /-- It is asked whether a path leads to a directory. -/
  | isDirectory (path : String)
  /-- It is asked for all files below a directory. -/
  | walk (path : String)
  /-- A file is to be watched. -/
  | watch (path : String)
  /-- A text is printed. -/
  | print (text : String)
  /-- A warning is given. -/
  | warn (token : Css.Unresolved)
  /-- A text is printed on the stream for errors. -/
  | complain (text : String)
  /-- It is asked for the time. -/
  | clock
  deriving DecidableEq

/-- All that steps print, in order. -/
def Step.printed : List Step → String
  | [] => ""
  | .print text :: rest => text ++ printed rest
  | _ :: rest => printed rest

variable {σ φ α β : Type} {fs : FileSystem σ φ} {s s' : σ}

namespace Script

/-- All that a script does in a file system, in order. -/
def stepsOn (fs : FileSystem σ φ) (s : σ) : Script α → List Step
  | .done _ => []
  | .read path next => .read path :: stepsOn fs s (next (fs.read s path))
  | .write path text next =>
    match fs.write s path text with
    | .ok s' => .write path text :: stepsOn fs s' (next (.ok ()))
    | .error e => .write path text :: stepsOn fs s (next (.error e))
  | .isDirectory path next => .isDirectory path :: stepsOn fs s (next (fs.isDirectory s path))
  | .walk path next => .walk path :: stepsOn fs s (next (fs.walk s path))
  | .watch path next => .watch path :: stepsOn fs s (next (fs.watch s path))
  | .print text next => .print text :: stepsOn fs s next
  | .warn token next => .warn token :: stepsOn fs s next
  | .complain text next => .complain text :: stepsOn fs s next
  | .clock next => .clock :: stepsOn fs s (next (fs.clock s))

/-- The second script of a sequence goes on with what the first one answers and leaves. -/
theorem stepsOn_bind {x : Script α} {f : α → Script β} :
    (x.bind f).stepsOn fs s =
      x.stepsOn fs s ++ (f (x.runOn fs s).1).stepsOn fs (x.runOn fs s).2 := by
  induction x generalizing s with
  | done a => rfl
  | read path next ih => exact congrArg _ (ih _)
  | write path text next ih =>
    simp only [bind, stepsOn, runOn]
    cases fs.write s path text with
    | ok s' => exact congrArg _ (ih _)
    | error e => exact congrArg _ (ih _)
  | isDirectory path next ih => exact congrArg _ (ih _)
  | walk path next ih => exact congrArg _ (ih _)
  | watch path next ih => exact congrArg _ (ih _)
  | print text next ih => exact congrArg _ ih
  | warn token next ih => exact congrArg _ ih
  | complain text next ih => exact congrArg _ ih
  | clock next ih => exact congrArg _ (ih _)

end Script

namespace Action

/-- All that an action does in a file system, in order. -/
def stepsOn (fs : FileSystem σ φ) (s : σ) (x : Action α) : List Step :=
  Script.stepsOn fs s x.run

/-- An action has an outcome, leaves a state, and does this by some steps. -/
structure Runs (fs : FileSystem σ φ) (s : σ) (x : Action α) (outcome : Except StyleError α)
    (left : σ) (steps : List Step) : Prop where
  performOn_eq : x.performOn fs s = (outcome, left)
  stepsOn_eq : x.stepsOn fs s = steps

variable {x : Action α} {f : α → Action β} {outcome : Except StyleError β}
  {steps steps' : List Step}

/-- If the first action succeeds, the second one goes on with what it has left. -/
theorem Runs.bind {a : α} {left : σ} (hx : Runs fs s x (.ok a) s' steps)
    (hf : Runs fs s' (f a) outcome left steps') :
    Runs fs s (x >>= f) outcome left (steps ++ steps') := by
  refine ⟨(performOn_bind_of_ok hx.performOn_eq f).trans hf.performOn_eq, ?_⟩
  rw [stepsOn, ExceptT.run_bind]
  refine Script.stepsOn_bind.trans ?_
  rw [show Script.runOn fs s x.run = (.ok a, s') from hx.performOn_eq]
  rw [← hx.stepsOn_eq, ← hf.stepsOn_eq]
  rfl

theorem runs_line (text : String) :
    Runs fs s (line text) (.ok ()) s [.print (text ++ "\n")] := ⟨rfl, rfl⟩

/-- An action whose outcome is looked at does what it does anyway. -/
theorem Runs.lift_run {result : Except StyleError α} (hx : Runs fs s x result s' steps) :
    Runs fs s (ExceptT.lift x.run) (.ok result) s' steps := by
  obtain ⟨hperform, rfl⟩ := hx
  refine ⟨Script.runOn_bind.trans ?_, Script.stepsOn_bind.trans (List.append_nil _)⟩
  rw [show Script.runOn fs s x.run = (result, s') from hperform]
  rfl

end Action

end StyleTree
