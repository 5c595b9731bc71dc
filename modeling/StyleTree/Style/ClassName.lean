import StyleTree.Style.Written
import StyleTree.Text.Fingerprint

/-!
# Class names

The class name of a style tree rests on its content alone: it ends in the fingerprint of the
canonical text, before which stand a part shared by all names of a style sheet and a part for the
component. Empty parts are left out.

## Main definitions

* `Sheet.className` — the class name of a style tree

## Main results

* `className_eq_of_canonical_eq` — trees with one canonical text have one class name
-/

namespace StyleTree

/-- Parts of a class name joined by hyphens, without the empty ones. -/
def joinNameParts (parts : List String) : String :=
  "-".intercalate (parts.filter (· ≠ ""))

namespace Sheet

/-- The class name of a style tree, with its first part and the part for the component. -/
def className (es : Sheet) (family : String) (component : Option String) : String :=
  joinNameParts [family, component.getD "", Text.fingerprint es.canonical]

/-- Trees with one canonical text have one class name. -/
theorem className_eq_of_canonical_eq {es fs : Sheet} (h : es.canonical = fs.canonical)
    (family : String) (component : Option String) :
    es.className family component = fs.className family component := by
  simp only [className, h]

end Sheet

end StyleTree
