import StyleTree.Css.Writer
import StyleTree.Proofs.Number.Integer
import StyleTree.Proofs.Style.Reading
import StyleTree.Style.ClassName

/-!
# Numbers of one text

A style sheet and a class name show a number by its text only. So a tree may hold other numbers of
the same texts; in particular a zero may have a sign or none.

## Main results

* `compact_mapNumbers`, `renderSheet_mapNumbers` — a tree with other numbers as it is written
* `className_mapNumbers_plainZero`, `renderSheet_mapNumbers_plainZero` — the sign of a zero is shown
  nowhere
-/

namespace StyleTree

variable {number : Number → String} {g : Number → Number}

/-! ### Written trees -/

namespace Sheet

theorem compactMembers_mapNumbers (es : Sheet) :
    compactMembers number (es.mapNumbers g) = compactMembers (number ∘ g) es := by
  induction es using Sheet.induction with
  | nil => rfl
  | scalar k v rest ih => cases v <;> exact congrArg (_ :: ·) ih
  | scope k inner rest ihinner ih =>
    simp only [mapNumbers, compactMembers, Style.mapNumbers, Style.compact, ihinner, ih]

/-- In a written tree each number has the text of the one in its place. -/
theorem compact_mapNumbers (es : Sheet) :
    (es.mapNumbers g).compact number = es.compact (number ∘ g) := by
  simp only [compact, Style.compact, compactMembers_mapNumbers]

end Sheet

/-! ### Style sheets -/

namespace Css

variable {ctx : Context} {keys : KeyAliases}

theorem declare_mapNumbers (hg : ∀ x, (g x).styleText = x.styleText) (property : String)
    (v : Scalar) (selectors : Selectors) (d : Draft) :
    (Node.ofStyle keys property ((Style.scalar v).mapNumbers g)).write ctx selectors d =
      (Node.ofStyle keys property (.scalar v)).write ctx selectors d := by
  cases v with
  | text s => rfl
  | number x =>
    -- A number is no reference, so its text is all that is written.
    have htext : declaration ctx property (.number (g x)) = declaration ctx property (.number x) :=
      congrArg (Declaration.mk (Text.hyphenate property)) (hg x)
    simp only [Style.mapNumbers, Node.ofStyle, Node.write, Draft.declare, htext]
    rfl

theorem writeAll_mapNumbers (hg : ∀ x, (g x).styleText = x.styleText) (es : Sheet) :
    ∀ (selectors : Selectors) (d : Draft),
      Node.writeAll ctx selectors (Node.ofSheet keys (es.mapNumbers g)) d =
        Node.writeAll ctx selectors (Node.ofSheet keys es) d := by
  induction es using Sheet.induction with
  | nil => exact fun _ _ => rfl
  | scalar k v rest ih =>
    intro selectors d
    rw [Sheet.mapNumbers, Node.ofSheet, Node.ofSheet, Node.writeAll, Node.writeAll,
      declare_mapNumbers hg, ih]
  | scope k inner rest ihinner ih =>
    intro selectors d
    rw [Sheet.mapNumbers, Node.ofSheet, Node.ofSheet, Node.writeAll, Node.writeAll, ih]
    simp only [Style.mapNumbers, Node.ofStyle, Node.write, ihinner]

/-- A style sheet shows nothing of a number but its text. -/
theorem renderSheet_mapNumbers (hg : ∀ x, (g x).styleText = x.styleText) (selectors : Selectors)
    (es : Sheet) : renderSheet ctx selectors (es.mapNumbers g) = renderSheet ctx selectors es := by
  simp only [renderSheet, render, renderAfter, writeAll_mapNumbers hg]

end Css

/-! ### The sign of a zero -/

theorem Number.styleText_plainZero (x : Number) : x.plainZero.styleText = x.styleText := by
  rw [plainZero]
  split
  · next h =>
    obtain ⟨negative, rfl⟩ := exists_eq_zero_of_isZero h
    cases negative <;> decide +kernel
  · rfl

theorem Number.isFinite_plainZero (x : Number) : x.plainZero.isFinite = x.isFinite := by
  rw [plainZero]
  split
  · next h =>
    obtain ⟨negative, rfl⟩ := exists_eq_zero_of_isZero h
    rfl
  · rfl

theorem Sheet.className_mapNumbers_plainZero (es : Sheet) (family : String)
    (component : Option String) :
    (es.mapNumbers Number.plainZero).className family component =
      es.className family component := by
  have hnumber : canonicalNumber ∘ Number.plainZero = canonicalNumber := by
    funext x
    simp only [Function.comp_apply, canonicalNumber, Number.isFinite_plainZero,
      Number.styleText_plainZero]
  refine className_eq_of_canonical_eq ?_ family component
  rw [canonical, compact_mapNumbers, hnumber, canonical]

theorem Css.renderSheet_mapNumbers_plainZero {ctx : Context} (selectors : Selectors) (es : Sheet) :
    renderSheet ctx selectors (es.mapNumbers Number.plainZero) = renderSheet ctx selectors es :=
  renderSheet_mapNumbers Number.styleText_plainZero selectors es

end StyleTree
