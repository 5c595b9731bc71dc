import StyleTree.Storage.Script

/-!
# Performing actions

An action is a script that can fail. Performed on a desk it has an outcome and leaves a desk behind,
and both are those of its steps taken one after another up to the first failure. So what an action
does is read off its text, step by step.

## Main definitions

* `Action.perform` — the outcome of an action on a desk, with the desk it leaves

## Main results

* `perform_bind`, `exists_of_perform_bind_ok`, `perform_bind_of_error`, `perform_bind_of_ok` — one
  action after another, unless the first one fails
* `perform_read`, `perform_warn`, `perform_ofExcept` — single steps
-/

namespace StyleTree.Action

open Script (Desk)

variable {α β : Type}

/-- The outcome of an action on a desk, with the desk it leaves. -/
def perform (desk : Desk) (x : Action α) : Except StyleError α × Desk :=
  Script.run desk x.run

@[simp] theorem perform_pure (desk : Desk) (a : α) :
    perform desk (pure a) = (.ok a, desk) := rfl

@[simp] theorem perform_ofExcept (desk : Desk) (r : Except StyleError α) :
    perform desk (ofExcept r) = (r, desk) := rfl

/-- A failure ends a sequence of actions. -/
theorem perform_bind (desk : Desk) (x : Action α) (f : α → Action β) :
    perform desk (x >>= f) =
      match perform desk x with
      | (.ok a, left) => perform left (f a)
      | (.error e, left) => (.error e, left) := by
  rw [perform, ExceptT.run_bind]
  refine Script.run_bind.trans ?_
  unfold perform
  obtain ⟨outcome, left⟩ := Script.run desk x.run
  cases outcome with
  | ok a => rfl
  | error e => rfl

/-- A sequence of actions succeeds only if each of them does. -/
theorem exists_of_perform_bind_ok {desk : Desk} {x : Action α} {f : α → Action β} {b : β}
    (h : (perform desk (x >>= f)).1 = .ok b) :
    ∃ a left, perform desk x = (.ok a, left) ∧ (perform left (f a)).1 = .ok b := by
  rw [perform_bind] at h
  cases hx : perform desk x with
  | mk outcome left =>
    rw [hx] at h
    cases outcome with
    | ok a => exact ⟨a, left, rfl, h⟩
    | error e => cases h

/-- A failure of the first action is the outcome. -/
theorem perform_bind_of_error {desk left : Desk} {x : Action α} {e : StyleError}
    (h : perform desk x = (.error e, left)) (f : α → Action β) :
    perform desk (x >>= f) = (.error e, left) := by
  rw [perform_bind, h]

/-- If the first action succeeds, the second one follows on what it has left. -/
theorem perform_bind_of_ok {desk left : Desk} {x : Action α} {a : α}
    (h : perform desk x = (.ok a, left)) (f : α → Action β) :
    perform desk (x >>= f) = perform left (f a) := by
  rw [perform_bind, h]

@[simp] theorem perform_read (desk : Desk) (path : String) (unreadable : FileError → StyleError) :
    perform desk (read path unreadable) = ((desk.files.read path).mapError unreadable, desk) := rfl

/-- Warnings are added in order, and never fail. -/
@[simp] theorem perform_warn (tokens : List Css.Unresolved) (desk : Desk) :
    perform desk (warn tokens) =
      (.ok (), ⟨desk.files, desk.printed, desk.warnings ++ tokens⟩) := by
  induction tokens generalizing desk with
  | nil => simp [warn]
  | cons token rest ih =>
    have hstep : perform desk (warn (token :: rest)) =
        perform ⟨desk.files, desk.printed, desk.warnings ++ [token]⟩ (warn rest) := rfl
    rw [hstep, ih, List.append_assoc, List.singleton_append]

end StyleTree.Action
