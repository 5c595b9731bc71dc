import StyleTree.Entries
import StyleTree.Number.Layout

/-!
# Style trees

A style tree maps keys to values in the order in which they were written: a scalar declares a
property, a nested tree opens a scope. The order decides both the order of the style sheet and the
generated class name.

## Main definitions

* `Scalar` — the value of a declaration, a text or a number
* `Style`, `Sheet` — a value of a style tree, and the tree itself
* `Sheet.DistinctKeys` — no key is repeated, at any level
* `Sheet.same` — equality in which numbers are compared numerically

## Main results

* `Sheet.induction`, `Sheet.induction_scopes` — induction over a tree, an entry or a level at a time
-/

namespace StyleTree

/-- The value of a declaration. -/
inductive Scalar where
  /-- A text, which is a token reference if it starts with a dollar sign. -/
  | text (s : String)
  /-- A number. -/
  | number (x : Number)
  deriving DecidableEq

namespace Scalar

/-- The character that marks a token reference. -/
def sigil : Char := '$'

/-- The reference that a scalar makes to a token. -/
def reference? : Scalar → Option String
  | .text s => if s.toList.head? = some sigil then some s else none
  | .number _ => none

/-- The scalar as the value of a declaration. -/
def cssText : Scalar → String
  | .text s => s
  | .number x => x.styleText

/-- Equality of scalars, numbers being compared numerically. -/
def same : Scalar → Scalar → Bool
  | .text s, .text t => s == t
  | .number x, .number y => x.same y
  | _, _ => false

end Scalar

/-- A value in a style tree. -/
inductive Style where
  /-- The value of a declaration. -/
  | scalar (v : Scalar)
  /-- A nested scope. -/
  | scope (entries : List (String × Style))

/-- A style tree: keys and values in the order in which the keys were first written. -/
abbrev Sheet := Entries Style

namespace Sheet

/-- Induction over a style tree, an entry at a time. -/
theorem induction {P : Sheet → Prop} (nil : P [])
    (scalar : ∀ k v rest, P rest → P ((k, .scalar v) :: rest))
    (scope : ∀ k inner rest, P inner → P rest → P ((k, .scope inner) :: rest))
    (es : Sheet) : P es :=
  @Style.rec_1 (fun s => ∀ inner, s = .scope inner → P inner) P
    (fun e => ∀ inner, e.2 = .scope inner → P inner)
    (fun _ _ h => nomatch h)
    (fun _ ih _ h => Style.scope.inj h ▸ ih)
    nil
    (fun e rest ihe ihrest => match e, ihe with
      | (k, .scalar v), _ => scalar k v rest ihrest
      | (k, .scope inner), ihe => scope k inner rest (ihe inner rfl) ihrest)
    (fun _ _ ih => ih)
    es

/-- Induction over a style tree, a level at a time. -/
theorem induction_scopes {P : Sheet → Prop}
    (step : ∀ es, (∀ k inner, (k, Style.scope inner) ∈ es → P inner) → P es) (es : Sheet) :
    P es := by
  refine step es ?_
  induction es using Sheet.induction with
  | nil => exact fun k inner h => absurd h List.not_mem_nil
  | scalar k v rest ih =>
    intro l inner h
    rcases List.mem_cons.mp h with heq | h
    · cases heq
    · exact ih l inner h
  | scope k inner rest ihinner ih =>
    intro l inner' h
    rcases List.mem_cons.mp h with heq | h
    · cases heq
      exact step inner ihinner
    · exact ih l inner' h

end Sheet

mutual

/-- No key of the value is repeated, at any level. -/
def Style.DistinctKeys : Style → Prop
  | .scalar _ => True
  | .scope es => Sheet.DistinctKeys es

/-- No key of the tree is repeated, at any level. -/
def Sheet.DistinctKeys : List (String × Style) → Prop
  | [] => True
  | (k, s) :: rest => k ∉ Entries.keys rest ∧ s.DistinctKeys ∧ Sheet.DistinctKeys rest

end

mutual

/-- Equality of values, numbers being compared numerically. -/
def Style.same : Style → Style → Bool
  | .scalar v, .scalar w => v.same w
  | .scope es, .scope fs => Sheet.same es fs
  | _, _ => false

/-- Equality of trees: the same keys in the same order, with equal values. -/
def Sheet.same : List (String × Style) → List (String × Style) → Bool
  | [], [] => true
  | (k, s) :: rest, (k', s') :: rest' => k == k' && s.same s' && Sheet.same rest rest'
  | _, _ => false

end

end StyleTree
