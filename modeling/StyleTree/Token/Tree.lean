import StyleTree.Table
import StyleTree.Token.Path

/-!
# Token trees

Design tokens are named values in a tree of groups. The entries of every group are kept sorted by
segment, so a tree has no order of its own.

## Main definitions

* `Token`, `TokenTree` — a value or a group of tokens, and the group at the root
* `Token.decEq`, `TokenTree.decEq` — tokens are compared at every level
* `Token.Ordered`, `TokenTree.Ordered` — every group is sorted
* `Token.at?`, `TokenTree.lookup` — what stands at a path
* `Token.write`, `TokenTree.insert` — a value written at a path
* `Token.over`, `TokenTree.merge` — a tree laid over another one

## Main results

* `lookup_dot` — looking up a path with a dot looks up its second part in the group at its first
-/

namespace StyleTree

/-- A design token: a value, or a group of tokens by segment. -/
inductive Token where
  /-- A value. -/
  | value (text : String)
  /-- A group of tokens. -/
  | group (entries : List (String × Token))

/-- The group at the root of all tokens. -/
abbrev TokenTree := Entries Token

mutual

/-- Whether two tokens are the same. -/
def Token.decEq : (a b : Token) → Decidable (a = b)
  | .value s, .value t => decidable_of_iff (s = t) ⟨congrArg Token.value, Token.value.inj⟩
  | .value _, .group _ => isFalse (by rintro ⟨⟩)
  | .group _, .value _ => isFalse (by rintro ⟨⟩)
  | .group es, .group fs =>
    match TokenTree.decEq es fs with
    | isTrue h => isTrue (congrArg Token.group h)
    | isFalse h => isFalse fun heq => h (Token.group.inj heq)

/-- Whether two trees are the same. -/
def TokenTree.decEq : (es fs : List (String × Token)) → Decidable (es = fs)
  | [], [] => isTrue rfl
  | [], _ :: _ => isFalse (List.cons_ne_nil _ _).symm
  | _ :: _, [] => isFalse (List.cons_ne_nil _ _)
  | (s, a) :: es, (t, b) :: fs =>
    match decEq s t, Token.decEq a b, TokenTree.decEq es fs with
    | isTrue hs, isTrue ha, isTrue hes => isTrue (by rw [hs, ha, hes])
    | isFalse hs, _, _ => isFalse fun heq => hs (Prod.mk.inj (List.cons.inj heq).1).1
    | _, isFalse ha, _ => isFalse fun heq => ha (Prod.mk.inj (List.cons.inj heq).1).2
    | _, _, isFalse hes => isFalse fun heq => hes (List.cons.inj heq).2

end

instance : DecidableEq Token := Token.decEq

namespace Token

/-- The value of a token that is no group. -/
def value? : Token → Option String
  | .value text => some text
  | .group _ => none

/-- The entries of a group; a value has none. -/
def entries : Token → TokenTree
  | .value _ => []
  | .group entries => entries

/-- What stands below a token at a path: each segment names an entry of a group. -/
def at? : List String → Token → Option Token
  | [], token => some token
  | segment :: path, token => (Entries.get? segment token.entries).bind (at? path)

/-- Writes a value below a token. Groups are made on the way, also in place of a value. -/
def write (text : String) : List String → Token → Token
  | [], _ => .value text
  | segment :: path, token =>
    let child := (Entries.get? segment token.entries).getD (.group [])
    .group (Entries.insertSorted segment (write text path child) token.entries)

end Token

mutual

/-- Every group in the token is sorted. -/
def Token.Ordered : Token → Prop
  | .value _ => True
  | .group entries => Entries.Sorted entries ∧ TokenTree.Ordered entries

/-- Every group among the entries is sorted. -/
def TokenTree.Ordered : List (String × Token) → Prop
  | [] => True
  | (_, token) :: rest => token.Ordered ∧ TokenTree.Ordered rest

end

mutual

/-- The token laid over a present one: two groups are merged, else the token takes the place. -/
def Token.over : Token → Option Token → Token
  | .group entries, some (.group present) => .group (TokenTree.overlay entries present)
  | token, _ => token

/-- The entries laid over those of a present tree, one after another. -/
def TokenTree.overlay : List (String × Token) → TokenTree → TokenTree
  | [], present => present
  | (segment, token) :: rest, present =>
    TokenTree.overlay rest
      (Entries.insertSorted segment (token.over (Entries.get? segment present)) present)

end

namespace TokenTree

/-- The tree with another one laid over it; groups are merged, and the values of the other tree
win. -/
def merge (tree other : TokenTree) : TokenTree :=
  overlay other tree

/-- What stands at a dotted path. -/
def lookup (tree : TokenTree) (path : String) : Option Token :=
  (Token.group tree).at? (Token.segments path)

/-- Writes a value at a dotted path. -/
def insert (tree : TokenTree) (path text : String) : TokenTree :=
  ((Token.group tree).write text (Token.segments path)).entries

/-- Writes a token at one segment, in place of whatever was there. -/
def set (tree : TokenTree) (segment : String) (token : Token) : TokenTree :=
  Entries.insertSorted segment token tree

end TokenTree

namespace Token

theorem at?_append {p q : List String} {token : Token} :
    token.at? (p ++ q) = (token.at? p).bind (at? q) := by
  induction p generalizing token with
  | nil => rfl
  | cons s p ih =>
    simp only [List.cons_append, at?]
    cases Entries.get? s token.entries with
    | none => rfl
    | some child => exact ih

end Token

/-- Looking up a path with a dot looks up its second part in what stands at its first part. -/
theorem TokenTree.lookup_dot {tree : TokenTree} {p q : String} :
    tree.lookup (p ++ "." ++ q) = (tree.lookup p).bind fun token => token.entries.lookup q := by
  rw [lookup, Token.segments_append_dot, Token.at?_append]
  cases h : (Token.group tree).at? (Token.segments p) with
  | none => simp [lookup, h]
  | some token =>
    simp only [lookup, h, Option.bind_some]
    cases hq : Token.segments q with
    | nil => exact absurd hq (Token.segments_ne_nil q)
    | cons s rest => rfl

end StyleTree
