/-!
# Texts and keys in TOML

The readers of what is made of characters in a TOML document: blanks and comments, the four kinds of
texts, and keys. A reader gives what it has read with the rest of the text, or nothing.

## Main definitions

* `Reader` — readers of a part of a document
* `endOfLine`, `skipLines` — blanks, comments and line ends
* `text` — a text of any of the four kinds
* `key` — a key, with its parts
-/

namespace StyleTree.Toml

/-- A reader of a part of a document. -/
abbrev Reader (α : Type) := List Char → Option (α × List Char)

/-- A blank inside a line. -/
def isSpace (c : Char) : Bool := c = ' ' || c = '\t'

/-- A character that may stand in a comment or a text: none of the controls but the tabulator. -/
def isPlain (c : Char) : Bool := c = '\t' || 0x20 ≤ c.toNat && c.toNat ≠ 0x7F

/-- The text without the blanks at its start. -/
def skipSpace (cs : List Char) : List Char := cs.dropWhile isSpace

/-- The text after a line end. -/
def lineEnd? : List Char → Option (List Char)
  | '\n' :: cs => some cs
  | '\x0d' :: '\n' :: cs => some cs
  | _ => none

/-- The text after the end of a line, before which only blanks and a comment may stand. -/
def endOfLine (cs : List Char) : Option (List Char) :=
  let rest := match skipSpace cs with
    | '#' :: comment => comment.dropWhile isPlain
    | rest => rest
  if rest = [] then some [] else lineEnd? rest

/-- The text without blanks, line ends and comments at its start; `comment` says that it starts
inside a comment. -/
def skipLines (comment : Bool) : List Char → List Char
  | [] => []
  | c :: cs =>
    if comment && isPlain c then skipLines true cs
    else if c = '\n' then skipLines false cs
    else if c = '\x0d' then
      match cs with
      | '\n' :: rest => skipLines false rest
      | _ => c :: cs
    else if comment then c :: cs
    else if isSpace c then skipLines false cs
    else if c = '#' then skipLines true cs
    else c :: cs

/-! ### Texts -/

/-- The value of a hexadecimal digit. -/
def hexValue? (c : Char) : Option Nat :=
  if c.isDigit then some (c.toNat - 48)
  else if 'a' ≤ c ∧ c ≤ 'f' then some (c.toNat - 87)
  else if 'A' ≤ c ∧ c ≤ 'F' then some (c.toNat - 55)
  else none

/-- The character with the code point of some hexadecimal digits. -/
def scalar? (digits : List Char) : Option Char :=
  (digits.foldlM (fun n d => (hexValue? d).map (16 * n + ·)) 0).bind fun n =>
    if n.isValidChar then some (Char.ofNat n) else none

/-- The character of a short escape. -/
def shortEscape? (c : Char) : Option Char :=
  match c with
  | '"' => some '"'
  | '\\' => some '\\'
  | 'b' => some '\x08'
  | 'f' => some '\x0c'
  | 'n' => some '\n'
  | 'r' => some '\x0d'
  | 't' => some '\t'
  | _ => none

/-- The rest of a text in quotation marks; `acc` holds its characters so far, the last one first. -/
def basicFrom (acc : List Char) : Reader String
  | [] => none
  | c :: cs =>
    if c = '"' then some (String.ofList acc.reverse, cs)
    else if c = '\\' then
      match cs with
      | 'u' :: h₁ :: h₂ :: h₃ :: h₄ :: rest =>
        (scalar? [h₁, h₂, h₃, h₄]).bind fun x => basicFrom (x :: acc) rest
      | 'U' :: h₁ :: h₂ :: h₃ :: h₄ :: h₅ :: h₆ :: h₇ :: h₈ :: rest =>
        (scalar? [h₁, h₂, h₃, h₄, h₅, h₆, h₇, h₈]).bind fun x => basicFrom (x :: acc) rest
      | e :: rest => (shortEscape? e).bind fun x => basicFrom (x :: acc) rest
      | [] => none
    else if isPlain c then basicFrom (c :: acc) cs
    else none

/-- The rest of a text in apostrophes, which knows no escapes. -/
def literalFrom (acc : List Char) : Reader String
  | [] => none
  | c :: cs =>
    if c = '\'' then some (String.ofList acc.reverse, cs)
    else if isPlain c then literalFrom (c :: acc) cs
    else none

/-- The end of a text over several lines after three closing marks: up to two more marks belong to
the text. -/
def closeLong (mark : Char) (acc cs : List Char) : String × List Char :=
  match cs with
  | [] => (String.ofList acc.reverse, [])
  | a :: rest =>
    if a ≠ mark then (String.ofList acc.reverse, cs)
    else
      match rest with
      | [] => (String.ofList (a :: acc).reverse, [])
      | b :: rest' =>
        if b ≠ mark then (String.ofList (a :: acc).reverse, rest)
        else (String.ofList (a :: b :: acc).reverse, rest')

/-- The rest of a text over several lines in quotation marks. `skipping` says that blanks and line
ends are left out, which they are after a backslash at the end of a line. -/
def longBasicFrom (skipping : Bool) (acc : List Char) : Reader String
  | [] => none
  | c :: cs =>
    if skipping && (isSpace c || c = '\n') then longBasicFrom true acc cs
    else if c = '\x0d' then
      match cs with
      | '\n' :: rest => longBasicFrom skipping (if skipping then acc else '\n' :: acc) rest
      | _ => none
    else if c = '"' then
      match cs with
      | '"' :: '"' :: rest => some (closeLong '"' acc rest)
      | _ => longBasicFrom false (c :: acc) cs
    else if c = '\\' then
      match cs with
      | 'u' :: h₁ :: h₂ :: h₃ :: h₄ :: rest =>
        (scalar? [h₁, h₂, h₃, h₄]).bind fun x => longBasicFrom false (x :: acc) rest
      | 'U' :: h₁ :: h₂ :: h₃ :: h₄ :: h₅ :: h₆ :: h₇ :: h₈ :: rest =>
        (scalar? [h₁, h₂, h₃, h₄, h₅, h₆, h₇, h₈]).bind fun x =>
          longBasicFrom false (x :: acc) rest
      | e :: rest =>
        match shortEscape? e with
        | some x => longBasicFrom false (x :: acc) rest
        | none =>
          if (lineEnd? (skipSpace (e :: rest))).isSome then longBasicFrom true acc (e :: rest)
          else none
      | [] => none
    else if c = '\n' || isPlain c then longBasicFrom false (c :: acc) cs
    else none

/-- The rest of a text over several lines in apostrophes. -/
def longLiteralFrom (acc : List Char) : Reader String
  | [] => none
  | c :: cs =>
    if c = '\x0d' then
      match cs with
      | '\n' :: rest => longLiteralFrom ('\n' :: acc) rest
      | _ => none
    else if c = '\'' then
      match cs with
      | '\'' :: '\'' :: rest => some (closeLong '\'' acc rest)
      | _ => longLiteralFrom (c :: acc) cs
    else if c = '\n' || isPlain c then longLiteralFrom (c :: acc) cs
    else none

/-- The text after the line end that may follow the opening of a text over several lines. -/
def skipFirstLineEnd (cs : List Char) : List Char := (lineEnd? cs).getD cs

/-- A text of any of the four kinds. -/
def text : Reader String
  | '"' :: '"' :: '"' :: cs => longBasicFrom false [] (skipFirstLineEnd cs)
  | '"' :: cs => basicFrom [] cs
  | '\'' :: '\'' :: '\'' :: cs => longLiteralFrom [] (skipFirstLineEnd cs)
  | '\'' :: cs => literalFrom [] cs
  | _ => none

/-! ### Keys -/

/-- A character of a key without marks. -/
def isBare (c : Char) : Bool := c.isAlphanum || c = '-' || c = '_'

/-- One part of a key: a text on one line, or some characters without marks. -/
def keyPart : Reader String
  | '"' :: cs => basicFrom [] cs
  | '\'' :: cs => literalFrom [] cs
  | cs =>
    match cs.takeWhile isBare with
    | [] => none
    | name => some (String.ofList name, cs.dropWhile isBare)

/-- The parts of a key with the blanks around them, at most as many as the first argument says. -/
def keyParts : Nat → Reader (List String)
  | 0, _ => none
  | fuel + 1, cs =>
    (keyPart (skipSpace cs)).bind fun (part, rest) =>
      match skipSpace rest with
      | '.' :: rest => (keyParts fuel rest).map fun (parts, rest) => (part :: parts, rest)
      | rest => some ([part], rest)

/-- The greatest depth of nesting, of parts in a key as of values in a value. -/
def depthLimit : Nat := 79

/-- A key, with the blanks around it. -/
def key : Reader (List String) := keyParts depthLimit

end StyleTree.Toml
