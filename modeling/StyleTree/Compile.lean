import StyleTree.Error
import StyleTree.Style.ClassName
import StyleTree.Style.Document

/-!
# Compilation

From a style document to a style sheet: the document is read, its aliases are replaced, the result
is named, and its nodes are written under the selector of the class. In strict mode a token
reference that does not resolve is an error, of which the first one in the order of the document is
shown.

## Main definitions

* `Options` — what can be chosen for a compilation
* `Sheet.ofDocument` — the style tree of a document, with the errors of a compilation
* `compileRule` — a style tree under a given class
* `compileClass` — a style tree under its own class name
* `renderStrict` — a style tree as it is, without any unresolved reference
* `draftSource`, `compileSource` — a document, with statistics; a draft may have unresolved
  references in strict mode, too
-/

namespace StyleTree

/-- The first part of generated class names, if none is chosen. -/
def defaultFamily : String := "cky"

/-- What can be chosen for a compilation. -/
structure Options where
  /-- The first part of generated class names. -/
  family : String := defaultFamily
  /-- The part of generated class names for the component. -/
  component : Option String := none
  /-- The selector to compile under, in place of a generated class. -/
  selector : Option String := none
  /-- Whether a token reference that does not resolve is an error. -/
  strict : Bool := false
  deriving DecidableEq

/-- What is known about a compilation. -/
structure Stats where
  /-- The size of the document in bytes. -/
  sourceSize : Nat
  /-- The size of the style sheet in bytes. -/
  outputSize : Nat
  /-- The generated class name, if no selector was given. -/
  className : Option String
  /-- The selector at the top. -/
  selector : String
  /-- The number of rules. -/
  ruleCount : Nat
  /-- The number of declarations. -/
  declarationCount : Nat
  /-- The number of references written as `undefined`. -/
  unresolvedCount : Nat
  deriving DecidableEq

/-- A style sheet with what is known about it. -/
structure Compiled where
  /-- The text of the style sheet. -/
  css : String
  /-- What is known about it. -/
  stats : Stats
  /-- The references written as `undefined`. -/
  unresolved : List Css.Unresolved
  deriving DecidableEq

/-- A class name with the style sheet for it. -/
structure CompiledClass where
  /-- The class name. -/
  className : String
  /-- The text of the style sheet. -/
  css : String
  deriving DecidableEq

/-- The style tree of a document. The error says whether the document is broken or holds the wrong
kind of value. -/
def Sheet.ofDocument (source filename : String) : Except StyleError Sheet :=
  match Sheet.ofJson source with
  | .ok es => .ok es
  | .error complaint =>
    .error (if complaint.cause.isShape then .misshapen filename complaint
      else .malformed filename complaint)

/-- Refuses unresolved references, for the first of them, if `strict` asks for it. -/
def checkResolved (strict : Bool) (unresolved : List Css.Unresolved) : Except StyleError Unit :=
  match strict, unresolved with
  | true, token :: _ => .error (.unresolved token)
  | _, _ => .ok ()

/-- A style tree as it is under the given selectors, without any unresolved reference. -/
def renderStrict (ctx : Context) (selectors : Selectors) (es : Sheet) :
    Except StyleError String :=
  let r := Css.renderSheet ctx selectors es
  (checkResolved true r.tally.unresolved).map fun _ => r.css

/-- The selector of a class. -/
def classSelector (className : String) : String := "." ++ className

/-- The style sheet for a style tree under the given class. -/
def compileRule (className : String) (es : Sheet) (ctx : Context) : String :=
  (Css.renderSheet ctx (.top (classSelector className)) (ctx.expand es)).css

/-- The style sheet for a style tree under its own class name. -/
def compileClass (es : Sheet) (ctx : Context) (options : Options) :
    Except StyleError CompiledClass :=
  let expanded := ctx.expand es
  let name := expanded.className options.family options.component
  let r := Css.renderSheet ctx (.top (classSelector name)) expanded
  (checkResolved options.strict r.tally.unresolved).map fun _ => ⟨name, r.css⟩

/-- The style sheet for a style tree under the chosen selector or under its own class name, with
unresolved references allowed. -/
def compileSheet (es : Sheet) (sourceSize : Nat) (ctx : Context) (options : Options) : Compiled :=
  let expanded := ctx.expand es
  let name := expanded.className options.family options.component
  let selector := options.selector.getD (classSelector name)
  let r := Css.renderSheet ctx (.top selector) expanded
  { css := r.css
    stats := {
      sourceSize := sourceSize
      outputSize := r.css.utf8ByteSize
      className := if options.selector.isSome then none else some name
      selector := selector
      ruleCount := r.tally.rules
      declarationCount := r.tally.declarations
      unresolvedCount := r.tally.unresolved.length }
    unresolved := r.tally.unresolved }

/-- The style sheet for a document, with unresolved references allowed. -/
def draftSource (source filename : String) (ctx : Context) (options : Options) :
    Except StyleError Compiled :=
  (Sheet.ofDocument source filename).map fun es =>
    compileSheet es source.utf8ByteSize ctx options

/-- The style sheet for a document. -/
def compileSource (source filename : String) (ctx : Context) (options : Options) :
    Except StyleError Compiled :=
  (draftSource source filename ctx options).bind fun compiled =>
    (checkResolved options.strict compiled.unresolved).map fun _ => compiled

end StyleTree
