import Mathlib.Control.Monad.Basic
import StyleTree.Proofs.Css.Writing
import StyleTree.Proofs.Storage.Performing
import StyleTree.Proofs.Style.Leaves
import StyleTree.Task.Basic

/-!
# Strict mode

In strict mode a token reference that does not resolve is an error. Which reference the error names
is settled by the document alone: the writer collects them node by node, in the order of the
entries, while the text puts the declarations of a scope before the scopes inside it. So neither
the selectors nor the class name have a say, and checking a file finds what compiling it finds.

## Main definitions

* `Css.Resolves` — a declaration without an unresolved reference

## Main results

* `unresolved_ofSheet` — the report about a style tree, leaf by leaf
* `perform_compileText` — the outcome of a compilation that warns
* `strict_iff_resolves` — when strict mode succeeds, and what its error names
-/

namespace StyleTree

namespace Css

variable {ctx : Context} {selectors : Selectors}

/-- If the declaration refers to a token, the reference resolves for the hyphenated property. -/
def Resolves (ctx : Context) (leaf : String × Scalar) : Prop :=
  ∀ reference, leaf.2.reference? = some reference →
    (ctx.resolve? (Text.hyphenate leaf.1) reference).isSome

/-- What a declaration of a style tree reports. -/
def unresolvedLeaf (ctx : Context) (leaf : String × Scalar) : List Unresolved :=
  unresolvedValue ctx (Text.hyphenate leaf.1) leaf.2

theorem unresolvedLeaf_eq_nil_iff {leaf : String × Scalar} :
    unresolvedLeaf ctx leaf = [] ↔ Resolves ctx leaf := by
  unfold unresolvedLeaf unresolvedValue Resolves
  cases leaf.2.reference? with
  | none => simp
  | some reference => simp [Option.isSome_iff_ne_none]

theorem exists_reference_of_not_resolves {leaf : String × Scalar} (h : ¬ Resolves ctx leaf) :
    ∃ reference, leaf = (leaf.1, .text reference) ∧
      unresolvedLeaf ctx leaf = [⟨Text.hyphenate leaf.1, reference⟩] := by
  obtain ⟨property, v⟩ := leaf
  obtain ⟨reference, href, hnone⟩ : ∃ reference, v.reference? = some reference ∧
      ¬ (ctx.resolve? (Text.hyphenate property) reference).isSome := by
    simpa [Resolves] using h
  have htext : v = .text reference := by
    cases v with
    | text s =>
      rw [Scalar.reference?] at href
      split at href
      · rw [Option.some.inj href]
      · cases href
    | number x => cases href
  refine ⟨reference, by rw [htext], ?_⟩
  simp only [unresolvedLeaf, unresolvedValue, href]
  rw [if_neg hnone]

/-- The report about a style tree, leaf by leaf; the kinds of the scopes have no say. -/
theorem unresolved_ofSheet (keys : KeyAliases) (es : Sheet) :
    unresolved ctx (Node.ofSheet keys es) = es.leaves.flatMap (unresolvedLeaf ctx) := by
  induction es using Sheet.induction with
  | nil => rfl
  | scalar key v rest ih =>
    rw [Node.ofSheet, unresolved, ih, Sheet.leaves, List.flatMap_append]
    simp [Node.ofStyle, Node.unresolved, Style.leaves, unresolvedLeaf]
  | scope key inner rest ihinner ih =>
    rw [Node.ofSheet, unresolved, ih, Sheet.leaves, List.flatMap_append]
    simp only [Node.ofStyle, Node.unresolved, Style.leaves, ihinner]

theorem unresolved_renderSheet (es : Sheet) :
    (renderSheet ctx selectors es).tally.unresolved = es.leaves.flatMap (unresolvedLeaf ctx) := by
  rw [renderSheet, render_eq]
  exact unresolved_ofSheet ctx.keyAliases es

theorem flatMap_unresolvedLeaf_eq_nil_iff {leaves : List (String × Scalar)} :
    leaves.flatMap (unresolvedLeaf ctx) = [] ↔ ∀ leaf ∈ leaves, Resolves ctx leaf := by
  simp only [List.flatMap_eq_nil_iff, unresolvedLeaf_eq_nil_iff]

/-- The first report is about the first leaf that does not resolve. -/
theorem exists_flatMap_unresolvedLeaf_eq_cons_iff {leaves : List (String × Scalar)}
    {token : Unresolved} :
    (∃ rest, leaves.flatMap (unresolvedLeaf ctx) = token :: rest) ↔
      ∃ before property reference after, leaves = before ++ (property, .text reference) :: after ∧
        (∀ leaf ∈ before, Resolves ctx leaf) ∧ ¬ Resolves ctx (property, .text reference) ∧
        token = ⟨Text.hyphenate property, reference⟩ := by
  constructor
  · rintro ⟨rest, hrest⟩
    induction leaves with
    | nil => cases hrest
    | cons leaf leaves ih =>
      rw [List.flatMap_cons] at hrest
      by_cases hleaf : Resolves ctx leaf
      · rw [unresolvedLeaf_eq_nil_iff.mpr hleaf, List.nil_append] at hrest
        obtain ⟨before, property, reference, after, rfl, hbefore, hnot, htoken⟩ := ih hrest
        refine ⟨leaf :: before, property, reference, after, rfl, ?_, hnot, htoken⟩
        intro other hother
        rcases List.mem_cons.mp hother with rfl | hother
        · exact hleaf
        · exact hbefore other hother
      · obtain ⟨reference, heq, hreport⟩ := exists_reference_of_not_resolves hleaf
        rw [hreport, List.singleton_append] at hrest
        refine ⟨[], leaf.1, reference, leaves, by rw [List.nil_append, ← heq], by simp,
          heq ▸ hleaf, (List.cons.inj hrest).1.symm⟩
  · rintro ⟨before, property, reference, after, rfl, hbefore, hnot, rfl⟩
    obtain ⟨reference', heq, hreport⟩ := exists_reference_of_not_resolves hnot
    obtain rfl : reference = reference' := Scalar.text.inj (Prod.mk.inj heq).2
    rw [List.flatMap_append, flatMap_unresolvedLeaf_eq_nil_iff.mpr hbefore, List.flatMap_cons,
      hreport]
    exact ⟨_, rfl⟩

end Css

open Css (Resolves unresolvedLeaf)

variable {ctx : Context} {selectors : Selectors}

/-! ### A style tree under selectors -/

theorem renderStrict_eq_ok_iff {es : Sheet} {css : String} :
    renderStrict ctx selectors es = .ok css ↔
      (∀ leaf ∈ es.leaves, Resolves ctx leaf) ∧
        css = (Css.renderSheet ctx selectors es).css := by
  rw [renderStrict, Css.unresolved_renderSheet, ← Css.flatMap_unresolvedLeaf_eq_nil_iff]
  cases es.leaves.flatMap (unresolvedLeaf ctx) with
  | nil => simp [checkResolved, Except.map, eq_comm]
  | cons token rest => simp [checkResolved, Except.map]

theorem renderStrict_eq_error_iff {es : Sheet} {e : StyleError} :
    renderStrict ctx selectors es = .error e ↔
      ∃ before property reference after,
        es.leaves = before ++ (property, .text reference) :: after ∧
        (∀ leaf ∈ before, Resolves ctx leaf) ∧ ¬ Resolves ctx (property, .text reference) ∧
        e = .unresolved ⟨Text.hyphenate property, reference⟩ := by
  have hfirst : renderStrict ctx selectors es = .error e ↔
      ∃ token, (∃ rest, es.leaves.flatMap (unresolvedLeaf ctx) = token :: rest) ∧
        e = .unresolved token := by
    rw [renderStrict, Css.unresolved_renderSheet]
    cases es.leaves.flatMap (unresolvedLeaf ctx) with
    | nil => simp [checkResolved, Except.map]
    | cons token rest => simp [checkResolved, Except.map, eq_comm]
  rw [hfirst]
  constructor
  · rintro ⟨token, hrest, rfl⟩
    obtain ⟨before, property, reference, after, heq, hbefore, hnot, rfl⟩ :=
      Css.exists_flatMap_unresolvedLeaf_eq_cons_iff.mp hrest
    exact ⟨before, property, reference, after, heq, hbefore, hnot, rfl⟩
  · rintro ⟨before, property, reference, after, heq, hbefore, hnot, rfl⟩
    exact ⟨_, Css.exists_flatMap_unresolvedLeaf_eq_cons_iff.mpr
      ⟨before, property, reference, after, heq, hbefore, hnot, rfl⟩, rfl⟩

/-! ### Documents and files -/

/-- Whether a strict compilation fails, and how, is settled by the document and the context. -/
theorem compileSource_strict_map (source filename : String) (ctx : Context) (options : Options) :
    (compileSource source filename ctx { options with strict := true }).map (fun _ => ()) =
      (Sheet.ofDocument source filename).bind fun es =>
        checkResolved true ((ctx.expand es).leaves.flatMap (unresolvedLeaf ctx)) := by
  rw [compileSource, draftSource]
  cases Sheet.ofDocument source filename with
  | error e => rfl
  | ok es =>
    simp only [Except.map, Except.bind, compileSheet, Css.unresolved_renderSheet]
    cases checkResolved true ((ctx.expand es).leaves.flatMap (unresolvedLeaf ctx)) <;> rfl

/-- Warnings have no part in the outcome of a compilation. -/
theorem perform_compileText (desk : Script.Desk) (source filename : String) (ctx : Context)
    (options : Options) :
    ((Task.compileText source filename ctx options).perform desk).1 =
      compileSource source filename ctx options := by
  rw [Task.compileText, compileSource]
  simp only [Action.perform_bind, Action.perform_ofExcept]
  cases draftSource source filename ctx options with
  | error e => rfl
  | ok compiled =>
    simp only [Action.perform_warn, Except.bind]
    cases checkResolved options.strict compiled.unresolved <;> rfl

theorem perform_readSource_of_ok {desk : Script.Desk} {path source : String}
    (h : desk.files.read path = .ok source) :
    (Task.readSource path).perform desk = (.ok source, desk) := by
  rw [Task.readSource, Action.perform_read, h]
  rfl

/-- Checking a readable file compiles its text in strict mode. -/
theorem perform_checkFile {desk : Script.Desk} {path source : String} (ctx : Context)
    (h : desk.files.read path = .ok source) :
    ((Task.checkFile path ctx).perform desk).1 =
      (compileSource source path ctx { strict := true }).map Compiled.stats := by
  have hread := perform_readSource_of_ok h
  rw [Task.checkFile, Action.perform_bind, hread, ← perform_compileText desk]
  simp only [Action.perform_bind]
  obtain ⟨outcome, left⟩ := (Task.compileText source path ctx { strict := true }).perform desk
  cases outcome with
  | ok compiled => rfl
  | error e => rfl

/-- Computations that agree up to their values succeed and fail alike. -/
theorem outcomes_agree {α β ε : Type} {x : Except ε α} {y : Except ε β}
    (h : x.map (fun _ => ()) = y.map (fun _ => ())) :
    ((∃ a, x = .ok a) ↔ ∃ b, y = .ok b) ∧ ∀ e, x = .error e ↔ y = .error e := by
  cases x <;> cases y <;> simp_all [Except.map]

/-- Strict mode. A style tree is accepted exactly if every reference in it resolves, and then its
text is that without strict mode; otherwise the error names the first declaration of the document
that does not resolve. The selectors make no difference, so a readable file passes the check exactly
if its text compiles in strict mode under any class name or selector, and fails with the same
error. -/
theorem strict_iff_resolves (ctx : Context) :
    (∀ (es : Sheet) (selectors : Selectors),
      ((∃ css, renderStrict ctx selectors es = .ok css) ↔ ∀ leaf ∈ es.leaves, Resolves ctx leaf) ∧
      (∀ css, renderStrict ctx selectors es = .ok css →
        css = (Css.renderSheet ctx selectors es).css) ∧
      (∀ e, renderStrict ctx selectors es = .error e ↔
        ∃ before property reference after,
          es.leaves = before ++ (property, .text reference) :: after ∧
          (∀ leaf ∈ before, Resolves ctx leaf) ∧ ¬ Resolves ctx (property, .text reference) ∧
          e = .unresolved ⟨Text.hyphenate property, reference⟩) ∧
      ∀ selectors' : Selectors,
        ((∃ css, renderStrict ctx selectors es = .ok css) ↔
          ∃ css, renderStrict ctx selectors' es = .ok css) ∧
        ∀ e, renderStrict ctx selectors es = .error e ↔
          renderStrict ctx selectors' es = .error e) ∧
    ∀ (desk : Script.Desk) (path source : String), desk.files.read path = .ok source →
      ∀ options : Options,
        ((∃ stats, ((Task.checkFile path ctx).perform desk).1 = .ok stats) ↔
          ∃ compiled, compileSource source path ctx { options with strict := true } =
            .ok compiled) ∧
        ∀ e, ((Task.checkFile path ctx).perform desk).1 = .error e ↔
          compileSource source path ctx { options with strict := true } = .error e := by
  have hok : ∀ (es : Sheet) (selectors : Selectors),
      (∃ css, renderStrict ctx selectors es = .ok css) ↔ ∀ leaf ∈ es.leaves, Resolves ctx leaf := by
    intro es selectors
    simp only [renderStrict_eq_ok_iff, exists_and_left, exists_eq, and_true]
  refine ⟨fun es selectors => ⟨hok es selectors, ?_, ?_, ?_⟩, ?_⟩
  · intro css hcss
    exact (renderStrict_eq_ok_iff.mp hcss).2
  · intro e
    exact renderStrict_eq_error_iff
  · intro selectors'
    refine ⟨(hok es selectors).trans (hok es selectors').symm, fun e => ?_⟩
    exact renderStrict_eq_error_iff.trans renderStrict_eq_error_iff.symm
  · intro desk path source hread options
    apply outcomes_agree
    have hmap : ((compileSource source path ctx { strict := true }).map Compiled.stats).map
        (fun _ => ()) = (compileSource source path ctx { strict := true }).map fun _ => () := by
      cases compileSource source path ctx { strict := true } <;> rfl
    rw [perform_checkFile ctx hread, hmap, compileSource_strict_map source path ctx options]
    exact compileSource_strict_map source path ctx { }

/-- A scope before a declaration: the reference inside the scope is the first one of the document,
although the rule of the declaration is written first. -/
theorem strict_iff_resolves_hover :
    let source := "\x7b\"&:hover\": \x7b\"fontSize\": \"$small\"\x7d, \"color\": \"$red\"\x7d"
    let es : Sheet := [("&:hover", .scope [("fontSize", .scalar (.text "$small"))]),
      ("color", .scalar (.text "$red"))]
    let desk : Script.Desk := ⟨[("card.json", .file (.text source))], "", []⟩
    let error := StyleError.unresolved ⟨"font-size", "$small"⟩
    desk.files.read "card.json" = .ok source ∧
      renderStrict .standard (.top ".card") es = .error error ∧
      ((Task.checkFile "card.json" .standard).perform desk).1 = .error error := by
  intro source es desk error
  have hread : desk.files.read "card.json" = .ok source := by decide +kernel
  have hcompile : compileSource source "card.json" .standard { strict := true } = .error error := by
    decide +kernel
  obtain ⟨hsheet, hfile⟩ := strict_iff_resolves .standard
  obtain ⟨-, -, herror, -⟩ := hsheet es (.top ".card")
  refine ⟨hread, (herror error).mpr ?_, ?_⟩
  · refine ⟨[], "fontSize", "$small", [("color", .text "$red")], rfl, by simp, ?_, rfl⟩
    intro hresolves
    exact absurd (hresolves "$small" rfl) (by decide +kernel)
  · exact ((hfile desk "card.json" source hread { }).2 error).mpr hcompile

end StyleTree
