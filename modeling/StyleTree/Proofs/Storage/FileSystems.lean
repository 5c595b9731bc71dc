import StyleTree.Proofs.Storage.Performing

/-!
# File systems

What a script does to files, without a word about how files are kept. A file system is known by its
answers alone: reading a file changes nothing, and writing one either fails without effect, for
whatever reason, or puts a text into one file and leaves all others as they are. A script that never
writes changes nothing in any file system.

## Main definitions

* `FileSystem` — states of files, with the answers to all questions of a script
* `Script.runOn`, `Action.performOn` — scripts and actions carried out in a file system
* `Script.ReadsOnly`, `Action.ReadsOnly` — no step writes, whatever the answers are

## Main results

* `Script.ReadsOnly.runOn_snd` — what only reads changes nothing
* `Script.ReadsOnly.bind`, `Action.readsOnly_bind` — reading steps in sequence
* `Action.performOn_bind_of_ok`, `Action.performOn_bind_of_error` — one action after another, unless
  the first one fails
-/

namespace StyleTree

/-- A file system with states of type `σ`, in which files are told apart by values of type `φ`. A
single access succeeds completely or fails without effect. -/
structure FileSystem (σ φ : Type) where
  /-- The text of the file at a path. -/
  read : σ → String → Except FileError String
  /-- The state with a text in the file at a path. -/
  write : σ → String → String → Except FileError σ
  /-- Whether a path leads to a directory. -/
  isDirectory : σ → String → Bool
  /-- The paths of all files below a directory. -/
  walk : σ → String → List String
  /-- Whether what is at a path can be watched for changes. -/
  watch : σ → String → Except WatchFailure Unit
  /-- The time in milliseconds. -/
  clock : σ → Nat
  /-- The file to which a path leads. -/
  file? : σ → String → Option φ
  /-- What a file holds, if it exists. -/
  contents? : σ → φ → Option Contents
  /-- What is read at a path is what its file holds. -/
  exists_of_read_eq_ok : ∀ {s path text}, read s path = .ok text →
    ∃ file, file? s path = some file ∧ contents? s file = some (.text text)
  /-- After a write the file at the path holds the text, and every other file holds what it held. -/
  exists_of_write_eq_ok : ∀ {s s' path text}, write s path text = .ok s' →
    ∃ file, file? s' path = some file ∧ contents? s' file = some (.text text) ∧
      ∀ other, other ≠ file → contents? s' other = contents? s other

variable {σ φ α β : Type} {fs : FileSystem σ φ} {s s' : σ}

namespace Script

/-- Carries out a script in a file system, without regard to what it prints. -/
def runOn (fs : FileSystem σ φ) (s : σ) : Script α → α × σ
  | .done a => (a, s)
  | .read path next => runOn fs s (next (fs.read s path))
  | .write path text next =>
    match fs.write s path text with
    | .ok s' => runOn fs s' (next (.ok ()))
    | .error e => runOn fs s (next (.error e))
  | .isDirectory path next => runOn fs s (next (fs.isDirectory s path))
  | .walk path next => runOn fs s (next (fs.walk s path))
  | .watch path next => runOn fs s (next (fs.watch s path))
  | .print _ next => runOn fs s next
  | .warn _ next => runOn fs s next
  | .complain _ next => runOn fs s next
  | .clock next => runOn fs s (next (fs.clock s))

/-- No step of the script writes, whatever the answers are. -/
def ReadsOnly : Script α → Prop
  | .done _ => True
  | .read _ next => ∀ r, (next r).ReadsOnly
  | .write _ _ _ => False
  | .isDirectory _ next => ∀ r, (next r).ReadsOnly
  | .walk _ next => ∀ r, (next r).ReadsOnly
  | .watch _ next => ∀ r, (next r).ReadsOnly
  | .print _ next => next.ReadsOnly
  | .warn _ next => next.ReadsOnly
  | .complain _ next => next.ReadsOnly
  | .clock next => ∀ r, (next r).ReadsOnly

theorem runOn_bind {x : Script α} {f : α → Script β} :
    (x.bind f).runOn fs s = (f (x.runOn fs s).1).runOn fs (x.runOn fs s).2 := by
  induction x generalizing s with
  | done a => rfl
  | read path next ih => exact ih _
  | write path text next ih =>
    simp only [bind, runOn]
    split <;> exact ih _
  | isDirectory path next ih => exact ih _
  | walk path next ih => exact ih _
  | watch path next ih => exact ih _
  | print text next ih => exact ih
  | warn token next ih => exact ih
  | complain text next ih => exact ih
  | clock next ih => exact ih _

/-- A script that only reads changes nothing, in whatever file system. -/
theorem ReadsOnly.runOn_snd {x : Script α} (h : x.ReadsOnly) : (x.runOn fs s).2 = s := by
  induction x with
  | done a => rfl
  | read path next ih => exact ih _ (h _)
  | write path text next ih => exact h.elim
  | isDirectory path next ih => exact ih _ (h _)
  | walk path next ih => exact ih _ (h _)
  | watch path next ih => exact ih _ (h _)
  | print text next ih => exact ih h
  | warn token next ih => exact ih h
  | complain text next ih => exact ih h
  | clock next ih => exact ih _ (h _)

theorem ReadsOnly.bind {x : Script α} {f : α → Script β} (hx : x.ReadsOnly)
    (hf : ∀ a, (f a).ReadsOnly) : (x.bind f).ReadsOnly := by
  induction x with
  | done a => exact hf a
  | read path next ih => exact fun r => ih r (hx r)
  | write path text next ih => exact hx.elim
  | isDirectory path next ih => exact fun r => ih r (hx r)
  | walk path next ih => exact fun r => ih r (hx r)
  | watch path next ih => exact fun r => ih r (hx r)
  | print text next ih => exact ih hx
  | warn token next ih => exact ih hx
  | complain text next ih => exact ih hx
  | clock next ih => exact fun r => ih r (hx r)

end Script

namespace Action

/-- The outcome of an action in a file system, with the state it leaves. -/
def performOn (fs : FileSystem σ φ) (s : σ) (x : Action α) : Except StyleError α × σ :=
  Script.runOn fs s x.run

/-- No step of the action writes, whatever the answers are. -/
def ReadsOnly (x : Action α) : Prop :=
  Script.ReadsOnly x.run

theorem ReadsOnly.performOn_snd {x : Action α} (h : x.ReadsOnly) : (x.performOn fs s).2 = s :=
  Script.ReadsOnly.runOn_snd h

/-! ### One action after another -/

/-- If the first action succeeds, the second one follows on what it has left. -/
theorem performOn_bind_of_ok {x : Action α} {a : α} (h : x.performOn fs s = (.ok a, s'))
    (f : α → Action β) : (x >>= f).performOn fs s = (f a).performOn fs s' := by
  rw [performOn, ExceptT.run_bind]
  refine Script.runOn_bind.trans ?_
  rw [show Script.runOn fs s x.run = (.ok a, s') from h]
  rfl

/-- A failure of the first action is the outcome. -/
theorem performOn_bind_of_error {x : Action α} {e : StyleError}
    (h : x.performOn fs s = (.error e, s')) (f : α → Action β) :
    (x >>= f).performOn fs s = (.error e, s') := by
  rw [performOn, ExceptT.run_bind]
  refine Script.runOn_bind.trans ?_
  rw [show Script.runOn fs s x.run = (.error e, s') from h]
  rfl

theorem readsOnly_bind {x : Action α} {f : α → Action β} (hx : x.ReadsOnly)
    (hf : ∀ a, (f a).ReadsOnly) : (x >>= f).ReadsOnly := by
  rw [ReadsOnly, ExceptT.run_bind]
  refine Script.ReadsOnly.bind hx fun r => ?_
  cases r with
  | ok a => exact hf a
  | error e => trivial

/-! ### Single steps -/

theorem readsOnly_pure (a : α) : ReadsOnly (pure a) := trivial

theorem readsOnly_throw (e : StyleError) : ReadsOnly (throw e : Action α) := trivial

theorem readsOnly_ofExcept (r : Except StyleError α) : (ofExcept r).ReadsOnly := trivial

theorem readsOnly_read (path : String) (unreadable : FileError → StyleError) :
    (read path unreadable).ReadsOnly := fun _ => trivial

theorem readsOnly_line (text : String) : (line text).ReadsOnly := trivial

theorem readsOnly_isDirectory (path : String) : (isDirectory path).ReadsOnly := fun _ => trivial

theorem readsOnly_walk (path : String) : (walk path).ReadsOnly := fun _ => trivial

/-- The outcome of an action can be looked at without another write. -/
theorem readsOnly_lift_run {x : Action α} (h : x.ReadsOnly) :
    ReadsOnly (ExceptT.lift x.run) :=
  Script.ReadsOnly.bind h fun _ => trivial

theorem performOn_read (path : String) (unreadable : FileError → StyleError) :
    (read path unreadable).performOn fs s = ((fs.read s path).mapError unreadable, s) := rfl

theorem performOn_write_of_ok {path text : String} (h : fs.write s path text = .ok s') :
    (write path text).performOn fs s = (.ok (), s') := by
  rw [performOn, write, ExceptT.run_mk, Script.runOn, h]
  rfl

theorem performOn_write_of_error {path text : String} {failure : FileError}
    (h : fs.write s path text = .error failure) :
    (write path text).performOn fs s = (.error (.file failure), s) := by
  rw [performOn, write, ExceptT.run_mk, Script.runOn, h]
  rfl

/-- Warnings change nothing and never fail. -/
theorem performOn_warn (tokens : List Css.Unresolved) :
    (warn tokens).performOn fs s = (.ok (), s) := by
  induction tokens with
  | nil => rfl
  | cons token rest ih => exact ih

theorem readsOnly_warn (tokens : List Css.Unresolved) : (warn tokens).ReadsOnly := by
  induction tokens with
  | nil => trivial
  | cons token rest ih => exact ih

end Action

end StyleTree
