import StyleTree.Text.Blank

/-!
# Blocks of a style sheet

A style sheet is a list of blocks: rules, which put declarations under a selector, and at-rules,
which put a header around further blocks. This module holds their text.

## Main definitions

* `Css.Block` — a rule or an at-rule
* `Css.Block.text`, `Css.text` — the text of a block and of a style sheet
* `Css.ruleCount`, `Css.declarationCount` — how much a style sheet holds, at any depth

## Main results

* `Block.induction` — induction over a style sheet, a block at a time
* `text_append`, `ruleCount_append`, `declarationCount_append` — style sheets one after another
-/

namespace StyleTree.Css

/-- A property with its value, both as written. -/
structure Declaration where
  /-- The hyphenated property. -/
  property : String
  /-- The text of the value. -/
  value : String
  deriving DecidableEq

/-- A block of a style sheet. -/
inductive Block where
  /-- Declarations under a selector. -/
  | rule (selector : String) (declarations : List Declaration)
  /-- Blocks under the header of an at-rule. -/
  | atRule (header : String) (blocks : List Block)

/-- Induction over a style sheet, a block at a time. -/
theorem Block.induction {P : List Block → Prop} (nil : P [])
    (rule : ∀ selector ds rest, P rest → P (.rule selector ds :: rest))
    (atRule : ∀ header blocks rest, P blocks → P rest → P (.atRule header blocks :: rest))
    (blocks : List Block) : P blocks :=
  @Block.rec_1 (fun b => ∀ rest, P rest → P (b :: rest)) P
    (fun selector ds rest ih => rule selector ds rest ih)
    (fun header blocks ihblocks rest ih => atRule header blocks rest ihblocks ih)
    nil
    (fun _ rest ihblock ihrest => ihblock rest ihrest)
    blocks

/-- A declaration with the blank that parts it from the next one. -/
def Declaration.text (d : Declaration) : String :=
  d.property ++ ": " ++ d.value ++ "; "

/-- Declarations on one line. -/
def declarationsText (ds : List Declaration) : String :=
  Text.trim (String.join (ds.map Declaration.text))

mutual

/-- The text of a block. A rule takes one line; the blocks of an at-rule start a line each. -/
def Block.text : Block → String
  | .rule selector ds => selector ++ " \x7b " ++ declarationsText ds ++ " \x7d\n"
  | .atRule header blocks => header ++ " \x7b\n" ++ text blocks ++ "\x7d\n"

/-- The text of a list of blocks. -/
def text : List Block → String
  | [] => ""
  | b :: rest => b.text ++ text rest

end

theorem text_append (bs cs : List Block) : text (bs ++ cs) = text bs ++ text cs := by
  induction bs with
  | nil => simp [text]
  | cons b bs ih => simp [text, ih, String.append_assoc]

mutual

/-- The number of rules in a block. -/
def Block.ruleCount : Block → Nat
  | .rule _ _ => 1
  | .atRule _ blocks => ruleCount blocks

/-- The number of rules in a list of blocks, at any depth. -/
def ruleCount : List Block → Nat
  | [] => 0
  | b :: rest => b.ruleCount + ruleCount rest

end

theorem ruleCount_append (bs cs : List Block) :
    ruleCount (bs ++ cs) = ruleCount bs + ruleCount cs := by
  induction bs with
  | nil => simp [ruleCount]
  | cons b bs ih => simp [ruleCount, ih, Nat.add_assoc]

mutual

/-- The number of declarations in a block. -/
def Block.declarationCount : Block → Nat
  | .rule _ ds => ds.length
  | .atRule _ blocks => declarationCount blocks

/-- The number of declarations in a list of blocks, at any depth. -/
def declarationCount : List Block → Nat
  | [] => 0
  | b :: rest => b.declarationCount + declarationCount rest

end

theorem declarationCount_append (bs cs : List Block) :
    declarationCount (bs ++ cs) = declarationCount bs + declarationCount cs := by
  induction bs with
  | nil => simp [declarationCount]
  | cons b bs ih => simp [declarationCount, ih, Nat.add_assoc]

end StyleTree.Css
