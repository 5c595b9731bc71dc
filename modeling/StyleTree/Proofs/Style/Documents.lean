import Mathlib.Control.Monad.Basic
import StyleTree.Compile
import StyleTree.Proofs.Style.Leaves
import StyleTree.Proofs.Style.Verdict

/-!
# Style documents

A style document is a well-formed document that spells an object of texts, numbers and again such
objects. A text is accepted exactly if it is one, and the result is the tree that it stands for. The
refusal of any other text depends on what comes first in it: a misplaced value is reported even if
the text behind it is broken, so a document can be refused for its shape without being well-formed.

## Main definitions

* `Misfit` — a text in which something other than a style tree comes before any fault of syntax

## Main results

* `Sheet.ofDocument_eq_ok_iff` — which texts are accepted, and what they stand for
* `Sheet.ofDocument_error_kind` — of which kind the refusal of a text is
-/

namespace StyleTree

open Json (Blanks Broken IsDocument IsName Misshapen Reader Spelt TextSpelt)

/-- A text that holds, before any fault of syntax, something other than a style tree: a value that
is no object, or an object with a misplaced value. -/
inductive Misfit : List Char → Prop where
  | name {v : Json.Value} {c : Char} {letters cs u : List Char} (hname : IsName v c letters)
    (hblanks : Blanks cs (c :: (letters ++ u))) : Misfit cs
  | number {f : Json.Numeral.Form} {n : Json.Numeral} {cs u : List Char}
    (hblanks : Blanks cs (f.chars ++ u)) (hends : f.tail.Ends u) (hvalue : f.value? = some n) :
    Misfit cs
  | text {s : String} {cs t u : List Char} (hblanks : Blanks cs ('"' :: t))
    (htext : TextSpelt t s.toList u) : Misfit cs
  | list {cs u : List Char} (hblanks : Blanks cs ('[' :: u)) : Misfit cs
  | object {cs t : List Char} (hblanks : Blanks cs ('\x7b' :: t))
    (hmember : Misplaced (Reader.depthLimit - 1) (.member true) t) : Misfit cs

variable {depth : Nat} {v : Json.Value} {es : Sheet} {source filename : String}
  {c : Char} {letters cs t u : List Char}

/-! ### Well-formed documents -/

/-- The part holds a value that stands for nothing in a style tree, and no fault comes before it. -/
def Misplaces (depth : Nat) (t : List Char) : Json.Part → Prop
  | .value v => Style.ofValue? v = none → Misplaced depth .value t
  | .elements _ _ => True
  | .members first ms => Sheet.entries? ms = none → Misplaced depth (.member first) t

/-- A part of the grammar that stands for nothing holds a misplaced value. -/
theorem misplaces_of_spelt {part : Json.Part} (h : Spelt depth part t u) :
    Misplaces depth t part := by
  induction h with
  | name hname => exact fun _ => .name hname (.refl _)
  | number | text => exact fun h => nomatch h
  | list => exact fun _ => .list (.refl _)
  | object _ ih => exact fun h => .object (.refl _) (ih (Option.map_eq_none_iff.mp h))
  | endElements | element => trivial
  | endMembers => exact fun h => nomatch h
  | @member _ _ _ v _ _ _ _ _ _ hkey hblanks hvalue _ ihvalue ihrest =>
    intro h
    -- Either the value stands for nothing, or it is read and what stands behind it does not.
    cases hstyle : Style.ofValue? v with
    | none => exact .here hkey ((ihvalue hstyle).of_blanks hblanks)
    | some s =>
      have hrest := (Sheet.entries?_cons_eq_none_iff.mp h).resolve_left (by simp [hstyle])
      exact .later hkey hblanks hvalue hstyle (ihrest hrest)

/-- A well-formed document of something other than a style tree holds a misfit. -/
theorem Misfit.of_isDocument (h : IsDocument 127 v cs) (hv : Sheet.ofValue? v = none) :
    Misfit cs := by
  obtain ⟨t, u, hblanks, hspelt, hend⟩ := h
  cases hspelt with
  | name hname => exact .name hname hblanks
  | @number _ f _ _ hvalue => exact .number hblanks ((hend.ends Json.ends_nil).tail f.tail) hvalue
  | text htext => exact .text hblanks htext
  | list => exact .list hblanks
  | object hmembers =>
    exact .object hblanks (misplaces_of_spelt hmembers (Option.map_eq_none_iff.mp hv))

/-! ### The reader of a whole tree -/

namespace Sheet

theorem read_of_ne_brace (hspace : Json.skipSpace (c :: cs) = c :: cs) (hc : c ≠ '\x7b') :
    Sheet.read (c :: cs) = .error (Reader.wrongKind .sheet c cs) := by
  rw [Sheet.read, hspace]
  dsimp only
  rw [if_neg hc]

theorem read_name (hname : IsName v c letters) (cs : List Char) :
    ∃ found, Sheet.read (c :: cs) = refused .sheet id (Reader.name found letters cs) := by
  cases hname with
  | null =>
    refine ⟨.null, ?_⟩
    rw [read_of_ne_brace (Json.skipSpace_cons rfl) (by decide), Reader.wrongKind]
    simp only [↓reduceIte]
    cases Reader.name Json.Found.null ['u', 'l', 'l'] cs <;> rfl
  | true =>
    refine ⟨.boolean true, ?_⟩
    rw [read_of_ne_brace (Json.skipSpace_cons rfl) (by decide), Reader.wrongKind]
    simp only [Char.reduceEq, ↓reduceIte]
    cases Reader.name (Json.Found.boolean true) ['r', 'u', 'e'] cs <;> rfl
  | false =>
    refine ⟨.boolean false, ?_⟩
    rw [read_of_ne_brace (Json.skipSpace_cons rfl) (by decide), Reader.wrongKind]
    simp only [Char.reduceEq, ↓reduceIte]
    cases Reader.name (Json.Found.boolean false) ['a', 'l', 's', 'e'] cs <;> rfl

theorem read_numeral (hc : c = '-' ∨ c.isDigit) :
    Sheet.read (c :: cs) = refused .sheet Json.Numeral.found (Json.Numeral.read (c :: cs)) := by
  obtain ⟨hspace, hnull, htrue, hfalse, hbrace⟩ := Json.ne_of_number hc
  rw [read_of_ne_brace (Json.skipSpace_cons hspace) hbrace, Reader.wrongKind]
  dsimp only
  rw [if_neg hnull, if_neg htrue, if_neg hfalse, if_pos hc]
  cases Json.Numeral.read (c :: cs) <;> rfl

theorem read_quote : Sheet.read ('"' :: cs) = refused .sheet .text (Reader.text cs) := by
  rw [read_of_ne_brace (Json.skipSpace_cons rfl) (by decide), Reader.wrongKind]
  simp only [Char.reduceEq, ↓reduceIte]
  cases Reader.text cs <;> rfl

end Sheet

theorem Misfit.refuses (h : Misfit cs) : Misshapen (Sheet.read cs) := by
  cases h with
  | name hname hblanks =>
    obtain ⟨found, hread⟩ := Sheet.read_name hname _
    rw [Sheet.read_of_blanks hblanks, hread]
    exact misshapen_refused (Reader.name_append _ _)
  | @number f _ _ _ hblanks hends hvalue =>
    have hread := Json.Numeral.read_eq_ok_iff.mpr ⟨f, rfl, hends, hvalue⟩
    obtain ⟨c, ds, hchars, hc⟩ := f.head_chars
    rw [hchars, List.cons_append] at hblanks hread
    rw [Sheet.read_of_blanks hblanks, Sheet.read_numeral hc]
    exact misshapen_refused hread
  | text hblanks htext =>
    rw [Sheet.read_of_blanks hblanks, Sheet.read_quote]
    exact misshapen_refused (Reader.text_eq htext)
  | list hblanks =>
    rw [Sheet.read_of_blanks hblanks, Sheet.read_of_ne_brace (Json.skipSpace_cons rfl) (by decide)]
    exact ⟨_, rfl, rfl⟩
  | object hblanks hmember =>
    rw [Sheet.read_of_blanks hblanks, Sheet.read_brace]
    exact Sheet.misshapen_object (hmember.refuses [] _ (Nat.lt_succ_self _))

namespace Sheet

/-- The verdicts on a whole tree. -/
def Judged (cs : List Char) : Prop :=
  (∃ v es t u, Blanks cs t ∧ Spelt 127 (.value v) t u ∧ Sheet.ofValue? v = some es ∧
      Sheet.read cs = .ok (es, u)) ∨
    Misfit cs ∨ Broken (Sheet.read cs)

theorem judged_name (hname : IsName v c letters) (hblanks : Blanks t (c :: cs)) : Judged t := by
  obtain ⟨found, hread⟩ := read_name hname cs
  rcases Reader.name_cases found letters cs with ⟨u, rfl⟩ | hbroken
  · exact .inr (.inl (.name hname hblanks))
  · refine .inr (.inr ?_)
    rw [read_of_blanks hblanks, hread]
    exact broken_refused hbroken

theorem judged_number (hblanks : Blanks t (c :: cs)) (hc : c = '-' ∨ c.isDigit) : Judged t := by
  right
  rcases Json.Numeral.read_cases (c :: cs) with ⟨n, u, hread⟩ | hbroken
  · obtain ⟨f, hchars, hends, hvalue⟩ := Json.Numeral.read_eq_ok_iff.mp hread
    exact .inl (.number (hchars ▸ hblanks) hends hvalue)
  · right
    rw [read_of_blanks hblanks, read_numeral hc]
    exact broken_refused hbroken

theorem judged_text (hblanks : Blanks t ('"' :: cs)) : Judged t := by
  right
  rcases Reader.text_cases cs with ⟨s, u, htext⟩ | hbroken
  · exact .inl (.text hblanks htext)
  · right
    rw [read_of_blanks hblanks, read_quote]
    exact broken_refused hbroken

theorem judged_object (hblanks : Blanks t ('\x7b' :: cs)) : Judged t := by
  have hread : Sheet.read t = _ := (read_of_blanks hblanks).trans read_brace
  rcases Sheet.verdict (Reader.depthLimit - 1) (cs.length + 1) true [] cs with
    ⟨ms, es, u, hspelt, hes, hmembers⟩ | hmisplaced | hbroken
  · refine .inl ⟨.object ms, Entries.settled es, '\x7b' :: cs, u, hblanks, .object hspelt,
      congrArg (Option.map _) hes, ?_⟩
    rw [hread, object_of_members hmembers, ← Entries.ofList_eq_settled]
    rfl
  · exact .inr (.inl (.object hblanks hmisplaced))
  · exact .inr (.inr (hread ▸ broken_object hbroken))

/-- There are no other verdicts on a whole tree. -/
theorem judged (t : List Char) : Judged t := by
  cases ht : Json.skipSpace t with
  | nil =>
    refine .inr (.inr ?_)
    rw [Sheet.read, ht]
    exact ⟨_, rfl, rfl⟩
  | cons c cs =>
    have hblanks : Blanks t (c :: cs) := .of_skipSpace ht
    cases Json.start c with
    | name hname => exact judged_name hname hblanks
    | number hnumber => exact judged_number hblanks hnumber
    | quote => exact judged_text hblanks
    | bracket => exact .inr (.inl (.list hblanks))
    | brace => exact judged_object hblanks
    | other hnull htrue hfalse hnumber hquote hbracket hbrace =>
      -- No value starts with any other character.
      refine .inr (.inr ?_)
      rw [Sheet.read, ht]
      dsimp only
      rw [if_neg hbrace, Reader.wrongKind]
      dsimp only
      rw [if_neg hnull, if_neg htrue, if_neg hfalse, if_neg hnumber, if_neg hquote,
        if_neg hbracket, if_neg hbrace]
      exact ⟨_, rfl, rfl⟩

/-! ### Documents -/

theorem ofDocument_of_ok (hread : Sheet.read source.toList = .ok (es, u)) (hend : Blanks u []) :
    Sheet.ofDocument source filename = .ok es := by
  have hspace : Json.skipSpace u = [] := hend.skipSpace_eq
  simp only [Sheet.ofDocument, Sheet.ofJson, Reader.document, hread, hspace]

theorem ofDocument_of_trailing (hread : Sheet.read source.toList = .ok (es, u))
    (hend : ¬ Blanks u []) :
    ∃ e, Sheet.ofDocument source filename = .error e ∧ e.kind = .json := by
  cases hspace : Json.skipSpace u with
  | nil => exact absurd (.of_skipSpace hspace) hend
  | cons c cs =>
    simp only [Sheet.ofDocument, Sheet.ofJson, Reader.document, hread, hspace]
    exact ⟨_, rfl, rfl⟩

theorem ofDocument_of_broken (h : Broken (Sheet.read source.toList)) :
    ∃ e, Sheet.ofDocument source filename = .error e ∧ e.kind = .json := by
  obtain ⟨fault, hfault, hsyntax⟩ := h
  have hcause : (Json.Complaint.of source.toList fault).cause.isShape = false := hsyntax
  simp only [Sheet.ofDocument, Sheet.ofJson, Reader.document, hfault, hcause]
  exact ⟨_, rfl, rfl⟩

theorem ofDocument_of_misshapen (h : Misshapen (Sheet.read source.toList)) :
    ∃ e, Sheet.ofDocument source filename = .error e ∧ e.kind = .invalidFormat := by
  obtain ⟨fault, hfault, hshape⟩ := h
  have hcause : (Json.Complaint.of source.toList fault).cause.isShape = true := hshape
  simp only [Sheet.ofDocument, Sheet.ofJson, Reader.document, hfault, hcause]
  exact ⟨_, rfl, rfl⟩

theorem read_of_spelt (hblanks : Blanks cs t) (hspelt : Spelt 127 (.value v) t u)
    (hv : Sheet.ofValue? v = some es) : Sheet.read cs = .ok (es, u) := by
  cases hspelt with
  | name hname => cases hname <;> exact absurd hv nofun
  | number | text | list => exact absurd hv nofun
  | object hmembers =>
    obtain ⟨es', hes, rfl⟩ := Option.map_eq_some_iff.mp hv
    have hread := readAs_of_spelt hmembers es' [] _ hes (Nat.lt_succ_self _)
    rw [read_of_blanks hblanks, read_brace, ← Entries.ofList_eq_settled]
    exact object_of_members hread

theorem ofDocument_of_isDocument (h : IsDocument 127 v source.toList)
    (hv : Sheet.ofValue? v = some es) : Sheet.ofDocument source filename = .ok es := by
  obtain ⟨t, u, hblanks, hspelt, hend⟩ := h
  exact ofDocument_of_ok (read_of_spelt hblanks hspelt hv) hend

/-- The text of a misfit is refused for its shape. -/
theorem ofDocument_of_misfit (filename : String) (h : Misfit source.toList) :
    ∃ e, Sheet.ofDocument source filename = .error e ∧ e.kind = .invalidFormat :=
  ofDocument_of_misshapen h.refuses

/-- A text is the document of a style tree, or a misfit, or broken. -/
theorem ofDocument_cases (source filename : String) :
    (∃ v es, IsDocument 127 v source.toList ∧ Sheet.ofValue? v = some es ∧
        Sheet.ofDocument source filename = .ok es) ∨
      Misfit source.toList ∨
      ∃ e, Sheet.ofDocument source filename = .error e ∧ e.kind = .json := by
  rcases judged source.toList with ⟨v, es, t, u, hblanks, hspelt, hv, hread⟩ | hmisfit | hbroken
  · by_cases hend : Blanks u []
    · exact .inl ⟨v, es, ⟨t, u, hblanks, hspelt, hend⟩, hv, ofDocument_of_ok hread hend⟩
    · exact .inr (.inr (ofDocument_of_trailing hread hend))
  · exact .inr (.inl hmisfit)
  · exact .inr (.inr (ofDocument_of_broken hbroken))

/-- A text is accepted exactly if it is the document of a style tree: an object, with at most 127
objects inside each other, of texts, numbers and again such objects. The result is that tree, in
which each key stands where it first stands in its object, with the value that it has there last. A
document of any other value is refused. -/
theorem ofDocument_eq_ok_iff (source filename : String) (es : Sheet) :
    (Sheet.ofDocument source filename = .ok es ↔
      ∃ v, IsDocument 127 v source.toList ∧ Sheet.ofValue? v = some es) ∧
    ∀ v, IsDocument 127 v source.toList → Sheet.ofValue? v = none →
      ∃ e, Sheet.ofDocument source filename = .error e := by
  refine ⟨⟨fun h => ?_, fun ⟨v, hdocument, hv⟩ => ofDocument_of_isDocument hdocument hv⟩,
    fun v hdocument hv => ?_⟩
  · rcases ofDocument_cases source filename with ⟨v, es', hdocument, hv, hok⟩ | hmisfit | hjson
    · obtain rfl := Except.ok.inj (hok.symm.trans h)
      exact ⟨v, hdocument, hv⟩
    · obtain ⟨e, he, -⟩ := ofDocument_of_misfit filename hmisfit
      exact absurd (h.symm.trans he) nofun
    · obtain ⟨e, he, -⟩ := hjson
      exact absurd (h.symm.trans he) nofun
  · obtain ⟨e, he, -⟩ := ofDocument_of_misfit filename (.of_isDocument hdocument hv)
    exact ⟨e, he⟩

/-- A repeated key keeps its place and takes its last value. -/
example :
    (Sheet.ofDocument "\x7b\"a\": \"x\", \"b\": \"y\", \"a\": \"z\"\x7d" "styles.json").map
      Sheet.leaves = .ok [("a", .text "z"), ("b", .text "y")] := by
  decide +kernel

/-- A document that is broken is neither well-formed, nor does it hold a misfit. -/
theorem not_of_kind_json {e : StyleError} (he : Sheet.ofDocument source filename = .error e)
    (hkind : e.kind = .json) :
    (∀ v, ¬ IsDocument 127 v source.toList) ∧ ¬ Misfit source.toList := by
  have hmisfit : ¬ Misfit source.toList := by
    intro h
    obtain ⟨e', he', hkind'⟩ := ofDocument_of_misfit filename h
    obtain rfl := Except.error.inj (he.symm.trans he')
    exact absurd (hkind.symm.trans hkind') nofun
  refine ⟨fun v hdocument => ?_, hmisfit⟩
  cases hv : Sheet.ofValue? v with
  | none => exact hmisfit (.of_isDocument hdocument hv)
  | some es => exact absurd (he.symm.trans (ofDocument_of_isDocument hdocument hv)) nofun

/-- A text is refused for its shape exactly if something other than a style tree comes before any
fault of syntax, so each well-formed document of another value is. It is refused as broken if it is
not well-formed, unless such a value comes first: what stands behind that is not looked at. -/
theorem ofDocument_error_kind (source filename : String) :
    ((∃ e, Sheet.ofDocument source filename = .error e ∧ e.kind = .invalidFormat) ↔
      Misfit source.toList) ∧
    ((∃ e, Sheet.ofDocument source filename = .error e ∧ e.kind = .json) ↔
      (∀ v, ¬ IsDocument 127 v source.toList) ∧ ¬ Misfit source.toList) ∧
    ∀ v, IsDocument 127 v source.toList → Sheet.ofValue? v = none →
      ∃ e, Sheet.ofDocument source filename = .error e ∧ e.kind = .invalidFormat := by
  refine ⟨⟨fun ⟨e, he, hkind⟩ => ?_, ofDocument_of_misfit filename⟩,
    ⟨fun ⟨e, he, hkind⟩ => not_of_kind_json he hkind, fun ⟨hdocument, hmisfit⟩ => ?_⟩,
    fun v hdocument hv => ofDocument_of_misfit filename (.of_isDocument hdocument hv)⟩
  · rcases ofDocument_cases source filename with ⟨v, es, -, -, hok⟩ | hmisfit | ⟨e', he', hkind'⟩
    · exact absurd (he.symm.trans hok) nofun
    · exact hmisfit
    · obtain rfl := Except.error.inj (he.symm.trans he')
      exact absurd (hkind.symm.trans hkind') nofun
  · rcases ofDocument_cases source filename with ⟨v, es, hv, -, -⟩ | hmisfit' | hjson
    · exact absurd hv (hdocument v)
    · exact absurd hmisfit' hmisfit
    · exact hjson

/-- A text that breaks off behind a name is refused for the name. -/
theorem ofDocument_truncated_kind :
    (∃ e, Sheet.ofDocument "\x7b\"a\":null" "styles.json" = .error e ∧ e.kind = .invalidFormat) ∧
      ∀ depth v, ¬ IsDocument depth v "\x7b\"a\":null".toList := by
  constructor
  · have hkey : Json.KeySpelt true "a" ['"', 'a', '"', ':', 'n', 'u', 'l', 'l']
        ['n', 'u', 'l', 'l'] :=
      ⟨.first (.refl _), .char (.plain (by decide) (by decide) (by decide)) .close, .refl _⟩
    have hname : Misplaced (Reader.depthLimit - 1) .value ['n', 'u', 'l', 'l'] :=
      .name .null (.refl _)
    exact ofDocument_of_misfit "styles.json" (.object (.refl _) (.here hkey hname))
  · intro depth v hdocument
    have hbrace : '\x7d' ∈ ['"', 'a', '"', ':', 'n', 'u', 'l', 'l'] := hdocument.brace_mem rfl
    exact absurd hbrace (by decide)

end Sheet

end StyleTree
