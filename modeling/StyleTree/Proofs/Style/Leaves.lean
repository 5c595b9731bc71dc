import StyleTree.Style.Basic

/-!
# Leaves of a style tree

The declarations of a style tree at any depth, as they are written: those inside a scope stand where
the scope stands. What holds of every scalar, every number or every text of a tree is said of its
leaves, which need no recursion.

## Main definitions

* `Style.leaves`, `Sheet.leaves` — the declarations at any depth, in the order of the document

## Main results

* `Sheet.mem_leaves_iff` — each leaf comes from an entry
-/

namespace StyleTree

mutual

/-- The declarations that an entry with the given key and value comes to. -/
def Style.leaves (key : String) : Style → List (String × Scalar)
  | .scalar v => [(key, v)]
  | .scope es => Sheet.leaves es

/-- The declarations of a tree at any depth, in the order of the document. -/
def Sheet.leaves : Sheet → List (String × Scalar)
  | [] => []
  | (key, s) :: rest => s.leaves key ++ Sheet.leaves rest

end

theorem Sheet.mem_leaves_iff {es : Sheet} {leaf : String × Scalar} :
    leaf ∈ es.leaves ↔ ∃ e ∈ es, leaf ∈ e.2.leaves e.1 := by
  induction es with
  | nil => simp [leaves]
  | cons e rest ih => simp [leaves, ih]

end StyleTree
