import Mathlib.Algebra.GroupWithZero.Nat
import StyleTree.Proofs.Css.Rearranging
import StyleTree.Proofs.Css.Scoping

/-!
# One writer for several calls

A writer keeps its report from call to call. The report is only ever added to: no text depends on
it, and what a call adds is what a writer of its own would report. So the texts are those of fresh
writers, and the report after some calls is the sum of theirs.

What a fresh writer counts can be read off the nodes: a rule for each scope in which a declaration
stands directly, the top included, and a declaration for each node that is one, at any depth.

## Main definitions

* `Css.Call` — a style tree or nodes, to be written under some selectors
* `Css.Call.alone` — what a fresh writer makes of a call
* `Css.Tally.total` — several reports together

## Main results

* `getElem?_renderAll` — a call behind others
* `rules_tally_render`, `declarations_tally_render` — what a fresh writer counts
* `renderAll_calls` — a writer that is used again does what fresh writers do
-/

namespace StyleTree.Css

variable {ctx : Context} {selectors : Selectors} {nodes : List Node}

/-- Something to write: a style tree as it is, or nodes. -/
inductive Call where
  /-- A style tree. -/
  | sheet (selectors : Selectors) (es : Sheet)
  /-- Nodes. -/
  | nodes (selectors : Selectors) (nodes : List Node)

/-- The nodes of a call with the selectors to write them under. -/
def Call.group (ctx : Context) : Call → Selectors × List Node
  | .sheet selectors es => (selectors, Node.ofSheet ctx.keyAliases es)
  | .nodes selectors nodes => (selectors, nodes)

/-- What a writer makes of the call that is used for nothing else. -/
def Call.alone (ctx : Context) : Call → Rendering
  | .sheet selectors es => renderSheet ctx selectors es
  | .nodes selectors nodes => render ctx selectors nodes

theorem Call.alone_eq (call : Call) :
    call.alone ctx = render ctx (call.group ctx).1 (call.group ctx).2 := by
  cases call <;> rfl

/-! ### Reports together -/

namespace Tally

/-- Several reports together: the counts are summed up, and the references follow one another. -/
def total (ts : List Tally) : Tally :=
  ⟨(ts.map Tally.rules).sum, (ts.map Tally.declarations).sum, ts.flatMap Tally.unresolved⟩

theorem total_cons (t : Tally) (ts : List Tally) : total (t :: ts) = t.add (total ts) := by
  simp [total, add]

theorem total_singleton (t : Tally) : total [t] = t := by
  simp [total]

end Tally

/-! ### A call behind others -/

/-- A writer that has been used makes the same text as a fresh one and adds the same report. -/
theorem renderAfter_eq_render (before : Tally) :
    renderAfter ctx before selectors nodes =
      ⟨(render ctx selectors nodes).css, before.add (render ctx selectors nodes).tally⟩ := by
  rw [renderAfter_eq, render_eq]

theorem getElem?_renderAll (before : Tally) (calls : List Call) (i : Nat) :
    (renderAll ctx before (calls.map (Call.group ctx)))[i]? = calls[i]?.map fun call =>
      ⟨(call.alone ctx).css, before.add
        (Tally.total ((calls.take (i + 1)).map fun call => (call.alone ctx).tally))⟩ := by
  -- The report before is another one for every call, so the induction is for all of them.
  induction calls generalizing before i with
  | nil => rfl
  | cons call rest ih =>
    rw [List.map_cons, renderAll, renderAfter_eq_render, ← Call.alone_eq]
    cases i with
    | zero =>
      rw [List.getElem?_cons_zero, List.getElem?_cons_zero, List.take_succ_cons, List.take_zero,
        List.map_singleton, Tally.total_singleton, Option.map_some]
    | succ i =>
      rw [List.getElem?_cons_succ, ih, List.getElem?_cons_succ, List.take_succ_cons, List.map_cons,
        Tally.total_cons]
      simp only [Tally.add_assoc]

theorem length_renderAll (before : Tally) (groups : List (Selectors × List Node)) :
    (renderAll ctx before groups).length = groups.length := by
  induction groups generalizing before with
  | nil => rfl
  | cons group rest ih => exact congrArg (· + 1) (ih _)

/-! ### What a fresh writer counts -/

theorem ruleCount_eq_length_rules (bs : List Block) : ruleCount bs = (rules bs).length := by
  induction bs using Block.induction with
  | nil => rfl
  | rule selector ds rest ih =>
    simp [ruleCount, Block.ruleCount, rules, Block.rules, ih, Nat.add_comm]
  | atRule header blocks rest ihblocks ih =>
    simp [ruleCount, Block.ruleCount, rules, Block.rules, ihblocks, ih]

theorem declarationCount_eq_length_declarations (bs : List Block) :
    declarationCount bs = ((rules bs).flatMap Prod.snd).length := by
  induction bs using Block.induction with
  | nil => rfl
  | rule selector ds rest ih =>
    simp [declarationCount, Block.declarationCount, rules, Block.rules, ih]
  | atRule header blocks rest ihblocks ih =>
    simp [declarationCount, Block.declarationCount, rules, Block.rules, ihblocks, ih]

theorem length_declarations (nodes : List Node) :
    (declarations ctx nodes).length = nodes.countP Node.isDeclaration := by
  induction nodes with
  | nil => rfl
  | cons node rest ih =>
    cases node with
    | declaration property v =>
      rw [List.countP_cons_of_pos rfl, ← ih]
      rfl
    | scope kind selector children =>
      rw [List.countP_cons_of_neg Bool.false_ne_true, ← ih]
      rfl

theorem declarations_eq_nil_iff (nodes : List Node) :
    declarations ctx nodes = [] ↔ ¬ nodes.any Node.isDeclaration := by
  rw [← List.length_eq_zero_iff, length_declarations, List.countP_eq_zero, List.any_eq_true]
  simp only [not_exists, not_and]

theorem length_place_rules (p : Place) :
    (p.rules ctx selectors).length = if p.nodes.any Node.isDeclaration then 1 else 0 := by
  rw [Place.rules]
  by_cases h : p.nodes.any Node.isDeclaration
  · rw [if_neg fun hnil => (declarations_eq_nil_iff p.nodes).mp hnil h, if_pos h]
    rfl
  · rw [if_pos ((declarations_eq_nil_iff p.nodes).mpr h), if_neg h]
    rfl

theorem length_flatMap_place_rules (p : Place) :
    ((p.rules ctx selectors).flatMap Prod.snd).length = p.nodes.countP Node.isDeclaration := by
  rw [← length_declarations, Place.rules]
  split
  · next hnil => rw [hnil]; rfl
  · simp

/-- A fresh writer counts a rule for each scope in which a declaration stands directly. -/
theorem rules_tally_render :
    (render ctx selectors nodes).tally.rules =
      (places nodes).countP fun place => place.nodes.any Node.isDeclaration := by
  rw [render_eq]
  show ruleCount _ = _
  rw [ruleCount_eq_length_rules, rules_blocks, List.length_flatMap]
  induction places nodes with
  | nil => rfl
  | cons p ps ih =>
    rw [List.map_cons, List.sum_cons, ih, length_place_rules, List.countP_cons, Nat.add_comm]

/-- A fresh writer counts every node that is a declaration. -/
theorem declarations_tally_render :
    (render ctx selectors nodes).tally.declarations =
      ((places nodes).flatMap Place.nodes).countP Node.isDeclaration := by
  rw [render_eq]
  show declarationCount _ = _
  rw [declarationCount_eq_length_declarations, rules_blocks, List.flatMap_assoc,
    List.length_flatMap, List.countP_flatMap]
  exact congrArg List.sum (List.map_congr_left fun p _ => length_flatMap_place_rules p)

/-! ### One writer for all calls -/

/-- A writer that is used again does what fresh writers do. Every call makes the text of a fresh
writer; the counts after it are the sums over fresh writers for the calls up to it, and the
references reported are theirs one after another; so they are at the end for all calls. A fresh
writer counts a rule for each scope, the top included, in which a declaration stands directly, and a
declaration for each node at any depth that is one. -/
theorem renderAll_calls (ctx : Context) (calls : List Call) :
    let renderings := renderAll ctx .none (calls.map (Call.group ctx))
    let alone := calls.map (Call.alone ctx)
    renderings.map Rendering.css = alone.map Rendering.css ∧
      (∀ i, renderings[i]?.map Rendering.tally =
        alone[i]?.map fun _ => Tally.total ((alone.take (i + 1)).map Rendering.tally)) ∧
      (renderings.getLast?.map Rendering.tally).getD .none =
        Tally.total (alone.map Rendering.tally) ∧
      ∀ call : Call,
        let scopes := places (call.group ctx).2
        (call.alone ctx).tally.rules =
            scopes.countP (fun scope => scope.nodes.any Node.isDeclaration) ∧
          (call.alone ctx).tally.declarations =
            (scopes.flatMap Place.nodes).countP Node.isDeclaration := by
  intro renderings alone
  have hcall (i : Nat) : renderings[i]? = calls[i]?.map fun call =>
      ⟨(call.alone ctx).css,
        Tally.total ((calls.take (i + 1)).map fun call => (call.alone ctx).tally)⟩ := by
    rw [getElem?_renderAll]
    simp only [Tally.none_add]
  have htallies (i : Nat) : renderings[i]?.map Rendering.tally =
      alone[i]?.map fun _ => Tally.total ((alone.take (i + 1)).map Rendering.tally) := by
    rw [hcall, List.getElem?_map, Option.map_map, Option.map_map, ← List.map_take, List.map_map]
    rfl
  refine ⟨?_, htallies, ?_, fun call => ?_⟩
  · refine List.ext_getElem? fun i => ?_
    rw [List.getElem?_map, hcall, List.getElem?_map, List.getElem?_map, Option.map_map,
      Option.map_map]
    rfl
  · have hlength : renderings.length = alone.length := by
      rw [length_renderAll, List.length_map, List.length_map]
    rw [List.getLast?_eq_getElem?, hlength, htallies]
    -- The report after the last call is that of all calls; without any call nothing is reported.
    cases halone : alone with
    | nil => rfl
    | cons rendering rest => simp
  · rw [Call.alone_eq]
    exact ⟨rules_tally_render, declarations_tally_render⟩

end StyleTree.Css
