import StyleTree.Style.Basic
import StyleTree.Text.Quoted

/-!
# Style trees as JSON text

A style tree is written as a JSON object with its keys in order, either compactly or over several
lines. Writers differ in the text of a number only, so that text is a parameter.

## Main definitions

* `Sheet.compact` — a tree without any blanks
* `Sheet.canonical` — the compact text with numbers as style values, on which class names rest
* `Sheet.json`, `Sheet.prettyJson` — a tree as a JSON document, on one line or indented
-/

namespace StyleTree

open Text (quote)

/-- A scalar in a JSON text. -/
def Scalar.written (number : Number → String) : Scalar → String
  | .text s => quote s
  | .number x => number x

mutual

/-- A value without blanks. -/
def Style.compact (number : Number → String) : Style → String
  | .scalar v => v.written number
  | .scope es => "\x7b" ++ ",".intercalate (Sheet.compactMembers number es) ++ "\x7d"

/-- The members of a tree without blanks. -/
def Sheet.compactMembers (number : Number → String) : List (String × Style) → List String
  | [] => []
  | (k, s) :: rest => (quote k ++ ":" ++ s.compact number) :: Sheet.compactMembers number rest

end

mutual

/-- A value over several lines, the lines after the first one indented by `indent` levels of two
blanks. -/
def Style.pretty (number : Number → String) (indent : Nat) : Style → String
  | .scalar v => v.written number
  | .scope [] => "\x7b\x7d"
  | .scope es =>
    "\x7b\n" ++ ",\n".intercalate (Sheet.prettyMembers number (indent + 1) es) ++ "\n" ++
      String.ofList (List.replicate (2 * indent) ' ') ++ "\x7d"

/-- The members of a tree, one to a line. -/
def Sheet.prettyMembers (number : Number → String) (indent : Nat) :
    List (String × Style) → List String
  | [] => []
  | (k, s) :: rest =>
    (String.ofList (List.replicate (2 * indent) ' ') ++ quote k ++ ": " ++
      s.pretty number indent) :: Sheet.prettyMembers number indent rest

end

namespace Sheet

/-- A tree without blanks. -/
def compact (number : Number → String) (es : Sheet) : String :=
  (Style.scope es).compact number

/-- A number in the canonical text: as a style value, or `null` if it is not finite. -/
def canonicalNumber (x : Number) : String :=
  if x.isFinite then x.styleText else "null"

/-- The canonical text of a tree. -/
def canonical (es : Sheet) : String :=
  es.compact canonicalNumber

/-- The tree as a JSON document on one line. -/
def json (es : Sheet) : String :=
  es.compact Number.jsonText

/-- The tree as an indented JSON document. -/
def prettyJson (es : Sheet) : String :=
  (Style.scope es).pretty Number.jsonText 0

end Sheet

/-- The scalar as a JSON document. -/
def Scalar.json (v : Scalar) : String :=
  v.written Number.jsonText

end StyleTree
