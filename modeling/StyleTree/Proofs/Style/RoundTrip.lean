import StyleTree.Compile
import StyleTree.Proofs.Number.Digits
import StyleTree.Proofs.Style.Reading
import StyleTree.Proofs.Style.Writers

/-!
# Writing and reading a tree

A tree whose numbers are integers of magnitude at most `2 ^ 53` is read back from each of its three
texts, with the order of the keys at every level. Only the sign of a zero is lost. A tree with more
levels than the reader allows is refused, not cut off.

## Main results

* `Sheet.ofDocument_written` — the three texts of a tree as documents
-/

namespace StyleTree

open Json (Numeral)

variable {number : Number → String}

/-- A number that is written as an integer of 64 bits is read back as the nearest number. -/
theorem readsBack_of_toString {x : Number} {i : Int} (hnumber : number x = toString i)
    (hi : i.natAbs ≤ 2 ^ 53) (hx : x.toInt? = some i) :
    ReadsBack number Number.plainZero x := by
  constructor
  · rw [hnumber]
    exact Numeral.head_toString i
  · intro rest hrest
    -- The integer fits 64 bits, so no digit is left out and no sign is lost.
    have hlow : -(Numeral.greatestNegated : Int) ≤ i := by
      have hlimit : Numeral.greatestNegated = 2 ^ 63 := rfl
      omega
    have hhigh : i ≤ Numeral.greatestSignificand := by
      have hlimit : Numeral.greatestSignificand = 2 ^ 64 - 1 := rfl
      omega
    rw [hnumber]
    exact ⟨.integer i, Numeral.read_toString hlow hhigh hrest,
      Number.ofInt_of_toInt?_eq_some hx hi⟩

namespace Sheet

/-- The tree of a spelt document, with the errors of a compilation. -/
theorem ofDocument_spell {es : Sheet} {sp : Spacing} {level : Nat} {source : String}
    {g : Number → Number} (filename : String)
    (hes : es.Readable number g)
    (hsource : source.toList = (Style.scope es).spell sp number level) :
    (es.levels ≤ Json.Reader.depthLimit →
        Sheet.ofDocument source filename = .ok (es.mapNumbers g)) ∧
      (Json.Reader.depthLimit < es.levels → ∃ complaint,
        Sheet.ofDocument source filename = .error (.malformed filename complaint)) := by
  constructor
  · intro hlevels
    rw [Sheet.ofDocument, ofJson_spell hes hlevels hsource]
  · intro hlevels
    obtain ⟨complaint, hread, hcause⟩ := ofJson_spell_tooDeep hes hlevels hsource
    refine ⟨complaint, ?_⟩
    simp only [Sheet.ofDocument, hread, hcause]
    rfl

/-- Each of the three texts of a tree is read back as the tree, if the numbers are integers of
magnitude at most `2 ^ 53`; the negative zero becomes the positive one. A tree with more levels than
documents may have is no document. -/
theorem ofDocument_written {es : Sheet} (hkeys : DistinctKeys es)
    (hnumbers : ∀ k x, (k, Scalar.number x) ∈ es.leaves →
      ∃ i, x.toInt? = some i ∧ i.natAbs ≤ 2 ^ 53)
    {source : String} (hsource : source ∈ [es.canonical, es.json, es.prettyJson])
    (filename : String) :
    (es.levels ≤ 127 → Sheet.ofDocument source filename = .ok (es.mapNumbers Number.plainZero)) ∧
      (127 < es.levels → ∃ complaint,
        Sheet.ofDocument source filename = .error (.malformed filename complaint)) ∧
      ((∀ k, (k, Scalar.number (.zero true)) ∉ es.leaves) →
        es.mapNumbers Number.plainZero = es) := by
  have hcanonical : es.Readable canonicalNumber Number.plainZero := by
    refine ⟨hkeys, fun k x hx => ?_⟩
    obtain ⟨i, hi, hlimit⟩ := hnumbers k x hx
    exact readsBack_of_toString (canonicalNumber_of_toInt?_eq_some hi hlimit) hlimit hi
  have hjson : es.Readable Number.jsonText Number.plainZero := by
    refine ⟨hkeys, fun k x hx => ?_⟩
    obtain ⟨i, hi, hlimit⟩ := hnumbers k x hx
    exact readsBack_of_toString (Number.jsonText_of_toInt?_eq_some hi hlimit) hlimit hi
  have hread : (es.levels ≤ 127 →
        Sheet.ofDocument source filename = .ok (es.mapNumbers Number.plainZero)) ∧
      (127 < es.levels → ∃ complaint,
        Sheet.ofDocument source filename = .error (.malformed filename complaint)) := by
    simp only [List.mem_cons, List.not_mem_nil, or_false] at hsource
    rcases hsource with rfl | rfl | rfl
    · exact ofDocument_spell filename hcanonical (Style.toList_compact es 0)
    · exact ofDocument_spell filename hjson (Style.toList_compact es 0)
    · exact ofDocument_spell filename hjson (Style.toList_pretty es 0)
  exact ⟨hread.1, hread.2, fun hzero => mapNumbers_eq_self es fun k x hx =>
    Number.plainZero_eq_self fun heq => hzero k (heq ▸ hx)⟩

/-- Indentation and escapes are no part of what is read, and a zero loses its sign. -/
theorem ofDocument_written_hover :
    let es : Sheet := [("&:hover", .scope [("zIndex", .scalar (.number (.ofInt (-3))))]),
      ("content", .scalar (.text "\"a\\b\"\n")), ("margin", .scalar (.number (.zero true)))]
    let fs : Sheet := [("&:hover", .scope [("zIndex", .scalar (.number (.ofInt (-3))))]),
      ("content", .scalar (.text "\"a\\b\"\n")), ("margin", .scalar (.number (.zero false)))]
    DistinctKeys es ∧
      (∀ k x, (k, Scalar.number x) ∈ es.leaves → ∃ i, x.toInt? = some i ∧ i.natAbs ≤ 2 ^ 53) ∧
      es.levels ≤ 127 ∧ Sheet.ofDocument es.prettyJson "card.json" = .ok fs := by
  intro es fs
  have hkeys : DistinctKeys es := by simp [es, DistinctKeys, Style.DistinctKeys, Entries.keys]
  have hnumbers : ∀ k x, (k, Scalar.number x) ∈ es.leaves →
      ∃ i, x.toInt? = some i ∧ i.natAbs ≤ 2 ^ 53 := by
    intro k x hx
    have hx : k = "zIndex" ∧ x = .ofInt (-3) ∨ k = "margin" ∧ x = .zero true := by
      simpa [es, leaves, Style.leaves] using hx
    rcases hx with ⟨-, rfl⟩ | ⟨-, rfl⟩
    · exact ⟨-3, by decide +kernel, by decide⟩
    · exact ⟨0, by decide +kernel, by decide⟩
  have hlevels : es.levels ≤ 127 := by decide
  have hpretty : es.prettyJson ∈ [es.canonical, es.json, es.prettyJson] := by simp
  have hread := (ofDocument_written hkeys hnumbers hpretty "card.json").1 hlevels
  have hthree : (Number.ofInt (-3)).plainZero = .ofInt (-3) := by decide +kernel
  have hzero : (Number.zero true).plainZero = .zero false := by decide
  have hplain : es.mapNumbers Number.plainZero = fs := by
    simp only [es, fs, mapNumbers, Style.mapNumbers, hthree, hzero]
  exact ⟨hkeys, hnumbers, hlevels, hread.trans (congrArg Except.ok hplain)⟩

end Sheet

end StyleTree
