import StyleTree.Proofs.Css.Zeros
import StyleTree.Proofs.Style.Documents
import StyleTree.Proofs.Style.NormalForm
import StyleTree.Proofs.Style.RoundTrip
import StyleTree.Proofs.Task.EntryPoints

/-!
# Expanded documents

A style document can be expanded once, kept as a document, and compiled later. If no alias leads to
another one and the numbers are integers that a document can hold exactly, this comes to the same as
compiling the source: the expanded tree nests no deeper than its source, so it can be read back; it
is a normal form, so the second expansion does nothing; and the sign of a zero, which is all that
the document loses, is shown neither in the style sheet nor in the class name.

## Main definitions

* `NestsWithin` — what a part of a document stands for has no more levels than the part may have
* `Compiled.withSourceSize` — the same compilation of a source of another size

## Main results

* `levels_le_of_ofDocument` — a style document has as many levels as the reader allows at most
* `compileSheet_reread` — the expanded tree that is read back compiles as its source does
* `compileSource_expanded` — the expanded document compiles as its source does
-/

namespace StyleTree

open Json (Spelt)
open Script (Desk)

/-- The same compilation of a source of another size. -/
def Compiled.withSourceSize (size : Nat) (compiled : Compiled) : Compiled :=
  { compiled with stats := { compiled.stats with sourceSize := size } }

/-- What a part of a document stands for has at most `depth` levels, if it stands for anything. -/
def NestsWithin (depth : Nat) : Json.Part → Prop
  | .value v => ∀ s, Style.ofValue? v = some s → s.levels ≤ depth
  | .elements _ _ => True
  | .members _ ms => ∀ es, Sheet.entries? ms = some es → ∀ e ∈ es, e.2.levels ≤ depth

variable {ctx : Context} {es : Sheet} {source filename : String}

/-! ### Levels of a document -/

theorem levels_settled_le {es : List (String × Style)} {depth : Nat}
    (h : ∀ e ∈ es, e.2.levels ≤ depth) : Sheet.levels (Entries.settled es) ≤ depth + 1 := by
  rw [← Entries.ofList_eq_settled]
  refine Sheet.levels_le_iff.mpr ⟨Nat.succ_pos depth, fun e he => ?_⟩
  exact Nat.lt_succ_of_le (h e (Entries.mem_of_mem_ofList he))

/-- Each object of the grammar takes one of the levels that are left. -/
theorem nestsWithin_of_spelt {depth : Nat} {part : Json.Part} {t u : List Char}
    (h : Spelt depth part t u) : NestsWithin depth part := by
  induction h with
  | name hname => cases hname <;> exact fun s hs => nomatch hs
  | list => exact fun s hs => nomatch hs
  | number | text =>
    intro s hs
    obtain rfl := Option.some.inj hs
    exact Nat.zero_le _
  | object _ ih =>
    -- Of a repeated key one value is left, so there are no other values than those of the members.
    intro s hs
    obtain ⟨es, hes, rfl⟩ := Option.map_eq_some_iff.mp hs
    exact levels_settled_le (ih es hes)
  | endElements | element => trivial
  | endMembers =>
    intro es hes
    obtain rfl := Option.some.inj hes
    exact fun e he => absurd he List.not_mem_nil
  | member _ _ _ _ ihvalue ihrest =>
    intro es hes
    obtain ⟨s, rest, hs, hrest, rfl⟩ := Sheet.entries?_cons_eq_some_iff.mp hes
    exact List.forall_mem_cons.mpr ⟨ihvalue s hs, ihrest rest hrest⟩

/-- A style document has at most as many levels as the reader allows. -/
theorem levels_le_of_ofDocument (h : Sheet.ofDocument source filename = .ok es) :
    es.levels ≤ Json.Reader.depthLimit := by
  rcases Sheet.ofDocument_cases source filename with
    ⟨v, es', ⟨t, u, -, hspelt, -⟩, hv, hok⟩ | hmisfit | hjson
  · obtain rfl := Except.ok.inj (hok.symm.trans h)
    cases v with
    | object ms =>
      obtain ⟨es, hes, rfl⟩ := Option.map_eq_some_iff.mp hv
      exact nestsWithin_of_spelt hspelt _ (Option.map_eq_some_iff.mpr ⟨es, hes, rfl⟩)
    | null | boolean | number | text | list => cases hv
  · obtain ⟨e, he, -⟩ := Sheet.ofDocument_of_misfit filename hmisfit
    cases he.symm.trans h
  · obtain ⟨e, he, -⟩ := hjson
    cases he.symm.trans h

/-- Which file a text is in makes no difference to the tree of the text. -/
theorem ofDocument_filename (h : Sheet.ofDocument source filename = .ok es) (filename' : String) :
    Sheet.ofDocument source filename' = .ok es := by
  unfold Sheet.ofDocument at h ⊢
  cases hread : Sheet.ofJson source with
  | error complaint => simp [hread] at h
  | ok es' => simpa [hread] using h

/-! ### Reading back and compiling -/

/-- The expanded document is read as the expanded tree, up to the signs of zeros. -/
theorem ofDocument_prettyJson_expand (h : Sheet.ofDocument source filename = .ok es)
    (hnumbers : ∀ k x, (k, Scalar.number x) ∈ es.leaves →
      ∃ i, x.toInt? = some i ∧ i.natAbs ≤ 2 ^ 53) (filename' : String) :
    Sheet.ofDocument (ctx.expand es).prettyJson filename' =
      .ok ((ctx.expand es).mapNumbers Number.plainZero) := by
  -- The expanded tree has no other numbers than its source, and no repeated key.
  have hreadable : (ctx.expand es).Readable Number.jsonText Number.plainZero := by
    refine ⟨Sheet.distinctKeys_expand es, fun k x hx => ?_⟩
    obtain ⟨k', hk'⟩ := Sheet.exists_mem_leaves_of_mem_expand es hx
    obtain ⟨i, hi, hlimit⟩ := hnumbers k' x hk'
    exact readsBack_of_toString (Number.jsonText_of_toInt?_eq_some hi hlimit) hlimit hi
  have hlevels : (ctx.expand es).levels ≤ Json.Reader.depthLimit :=
    Nat.le_trans (Sheet.levels_expand_le es) (levels_le_of_ofDocument h)
  exact (Sheet.ofDocument_spell filename' hreadable (Style.toList_pretty _ 0)).1 hlevels

/-- The expanded tree compiles as its source does, also without the signs of its zeros. -/
theorem compileSheet_reread (hctx : ctx.Unchained) (es : Sheet) (size size' : Nat)
    (options : Options) :
    compileSheet ((ctx.expand es).mapNumbers Number.plainZero) size' ctx options =
      (compileSheet es size ctx options).withSourceSize size' := by
  have hexpand : ctx.expand ((ctx.expand es).mapNumbers Number.plainZero) =
      (ctx.expand es).mapNumbers Number.plainZero := by
    rw [Context.expand, Sheet.expand_mapNumbers, Context.expand,
      Sheet.expand_expand hctx.properties hctx.keys]
  simp only [compileSheet, hexpand, Sheet.className_mapNumbers_plainZero,
    Css.renderSheet_mapNumbers_plainZero, Compiled.withSourceSize]

/-- The expanded form of a style document, written as a document, compiles as its source does. In a
context in which no alias leads to another one, such as the standard one, and if the numbers are
integers of magnitude at most `2 ^ 53`, expanding a file gives a text that is a style document
again. Compiling it gives all that compiling the source gives, but for the size of the source, or
the same error. -/
theorem compileSource_expanded :
    Context.standard.Unchained ∧
    ∀ ctx : Context, ctx.Unchained → ∀ (source filename : String) (es : Sheet),
      Sheet.ofDocument source filename = .ok es →
      (∀ k x, (k, Scalar.number x) ∈ es.leaves → ∃ i, x.toInt? = some i ∧ i.natAbs ≤ 2 ^ 53) →
      let text := (ctx.expand es).prettyJson
      (∀ (desk : Desk) (path : String), desk.files.read path = .ok source →
        (Task.expandFile path ctx).perform desk = (.ok text, desk)) ∧
      ∀ filename' : String,
        (∃ fs, Sheet.ofDocument text filename' = .ok fs) ∧
        ∀ options : Options, compileSource text filename' ctx options =
          (compileSource source filename ctx options).map
            (Compiled.withSourceSize text.utf8ByteSize) := by
  refine ⟨Context.unchained_standard, fun ctx hctx source filename es hes hnumbers => ?_⟩
  refine ⟨fun desk path hread => ?_, fun filename' => ?_⟩
  · have hload : (Task.loadSheet path).perform desk = (.ok es, desk) := by
      rw [perform_loadSheet hread, ofDocument_filename hes path]
    exact Action.perform_bind_of_ok hload _
  · have hreread := @ofDocument_prettyJson_expand ctx _ _ _ hes hnumbers filename'
    refine ⟨⟨_, hreread⟩, fun options => ?_⟩
    rw [compileSource_of_ok hreread, compileSource_of_ok hes,
      compileSheet_reread hctx es source.utf8ByteSize]
    -- The two compilations have the same unresolved references, so one is refused with the other.
    have hunresolved (size : Nat) (compiled : Compiled) :
        (compiled.withSourceSize size).unresolved = compiled.unresolved := rfl
    rw [hunresolved]
    cases checkResolved options.strict
      (compileSheet es source.utf8ByteSize ctx options).unresolved <;> rfl

/-- A negative zero, the greatest magnitude, a scope that gets another key, and a reference that
strict mode refuses in both documents. -/
theorem compileSource_expanded_tablet :
    let ctx : Context := { Context.standard with
      propertyAliases := PropertyAliases.defaults.insert "gap" ["gap"]
      keyAliases := Table.ofList [("@tablet", "@media print")] }
    let source :=
      "\x7b\"px\": -0, \"@tablet\": \x7b\"m\": 9007199254740992, \"gap\": \"$gap\"\x7d\x7d"
    let text :=
      "\x7b\n  \"paddingLeft\": 0,\n  \"paddingRight\": 0,\n  \"@media print\": \x7b\n" ++
        "    \"margin\": 9007199254740992,\n    \"gap\": \"$gap\"\n  \x7d\n\x7d"
    let desk : Desk := ⟨[("card.json", .file (.text source))], "", []⟩
    ctx.Unchained ∧
      (∃ es, Sheet.ofDocument source "card.json" = .ok es ∧
        ∀ k x, (k, Scalar.number x) ∈ es.leaves → ∃ i, x.toInt? = some i ∧ i.natAbs ≤ 2 ^ 53) ∧
      desk.files.read "card.json" = .ok source ∧
      (Task.expandFile "card.json" ctx).perform desk = (.ok text, desk) ∧
      (∃ fs, Sheet.ofDocument text "long.json" = .ok fs) ∧
      compileSource text "long.json" ctx { strict := true } =
        .error (.unresolved ⟨"gap", "$gap"⟩) := by
  intro ctx source text desk
  have hctx : ctx.Unchained := ⟨by decide +kernel, by decide +kernel⟩
  have hparts : (Sheet.ofDocument source "card.json").map
      (fun es => (es.leaves, (ctx.expand es).prettyJson)) =
        .ok ([("px", .number (.zero true)), ("m", .number (.ofNat 9007199254740992)),
          ("gap", .text "$gap")], text) := by decide +kernel
  obtain ⟨es, hes, heq⟩ := exists_of_map_eq_ok hparts
  obtain ⟨hleaves, htext⟩ := Prod.mk.inj heq
  have hnumbers : ∀ k x, (k, Scalar.number x) ∈ es.leaves →
      ∃ i, x.toInt? = some i ∧ i.natAbs ≤ 2 ^ 53 := by
    intro k x hx
    have hx : k = "px" ∧ x = .zero true ∨ k = "m" ∧ x = .ofNat 9007199254740992 := by
      simpa [hleaves] using hx
    rcases hx with ⟨-, rfl⟩ | ⟨-, rfl⟩
    · exact ⟨0, by decide +kernel, by decide⟩
    · exact ⟨9007199254740992, by decide +kernel, by decide⟩
  have hread : desk.files.read "card.json" = .ok source := by decide +kernel
  have hstrict : compileSource source "card.json" ctx { strict := true } =
      .error (.unresolved ⟨"gap", "$gap"⟩) := by decide +kernel
  obtain ⟨hfile, hcompile⟩ := compileSource_expanded.2 ctx hctx source "card.json" es hes hnumbers
  obtain ⟨hdocument, hsame⟩ := hcompile "long.json"
  rw [htext] at hfile hdocument hsame
  refine ⟨hctx, ⟨es, hes, hnumbers⟩, hread, hfile desk "card.json" hread, hdocument, ?_⟩
  rw [hsame, hstrict]
  rfl

end StyleTree
