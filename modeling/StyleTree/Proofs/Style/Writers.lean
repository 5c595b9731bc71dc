import StyleTree.Proofs.Json.Integer
import StyleTree.Proofs.Number.Notation
import StyleTree.Proofs.Style.Canonical
import StyleTree.Proofs.Style.Leaves

/-!
# The canonical text and the JSON document

The canonical text of a tree and its JSON document on one line come from one recursion with two ways
to write a number. They differ exactly where a number has two texts. A style value is positional
over a wider range than a JSON number, the two resolve a tie between shortest decimals differently,
and an integer of more than sixteen digits keeps all of them in JSON, while a style value ends in
zeros behind the digits that tell the number apart.

## Main definitions

* `Decimal.LaidOutAlike` — the decimals that both layouts write alike
* `Number.CanonicalInJson` — the numbers whose JSON text is the canonical one

## Main results

* `Sheet.compact_eq_compact_iff` — two compact texts of one tree agree number by number
* `Number.jsonText_eq_iff` — which numbers have one text
* `Sheet.json_eq_canonical_iff` — for which trees the two texts are one
-/

namespace StyleTree

open Text (quoteChars)

/-! ### Texts of one tree -/

section Compact

variable {number number' : Number → String} {level : Nat} {first : Bool} {u v : List Char}

theorem Sheet.spell_cons_append {sp : Spacing} {k : String} {s : Style} {rest : Sheet} :
    spell sp number level first ((k, s) :: rest) ++ u =
      ((if first then [] else [',']) ++ (sp.member level ++ (quoteChars k.toList ++
        ':' :: sp.value))) ++ (s.spell sp number (level + 1) ++
          (rest.spell sp number level false ++ u)) := by
  simp only [spell, List.append_assoc, List.cons_append]

-- A number is written without the characters that tell it apart from what stands around it.
variable (hnumber : ∀ x, ∀ c ∈ (number x).toList, isDelimiter c = false)
  (hnumber' : ∀ x, ∀ c ∈ (number' x).toList, isDelimiter c = false)

include hnumber hnumber'

/-- If two texts of a tree begin alike, the numbers have one text each, and what follows is one. -/
theorem Sheet.eq_of_spell_append_eq (es : Sheet) :
    ∀ {level : Nat} {first : Bool} {u v : List Char},
      es.spell .none number level first ++ u = es.spell .none number' level first ++ v →
        (∀ k x, (k, Scalar.number x) ∈ es.leaves → number x = number' x) ∧ u = v := by
  induction es using Sheet.induction with
  | nil => exact fun h => ⟨fun k x hx => absurd hx List.not_mem_nil, List.append_cancel_left h⟩
  | scalar k w rest ih =>
    intro level first u v h
    rw [spell_cons_append, spell_cons_append] at h
    have h := List.append_cancel_left h
    cases w with
    | text s =>
      obtain ⟨hnumbers, huv⟩ := ih (List.append_cancel_left h)
      refine ⟨fun l x hx => hnumbers l x ?_, huv⟩
      simpa [leaves, Style.leaves] using hx
    | number y =>
      obtain ⟨htext, hrest⟩ := append_inj_of_isDelimiter (hnumber y) (hnumber' y)
        (isEnd_head_spell rest) (isEnd_head_spell rest) h
      obtain ⟨hnumbers, huv⟩ := ih hrest
      refine ⟨fun l x hx => ?_, huv⟩
      rcases List.mem_append.mp hx with hx | hx
      · obtain ⟨-, hx⟩ := Prod.mk.inj (List.mem_singleton.mp hx)
        obtain rfl := Scalar.number.inj hx
        exact String.toList_inj.mp htext
      · exact hnumbers l x hx
  | scope k inner rest ihinner ihrest =>
    intro level first u v h
    rw [spell_cons_append, spell_cons_append] at h
    have h := List.append_cancel_left h
    obtain ⟨hinner, hrest⟩ := ihinner (List.cons.inj h).2
    obtain ⟨hnumbers, huv⟩ := ihrest hrest
    refine ⟨fun l x hx => ?_, huv⟩
    rcases List.mem_append.mp hx with hx | hx
    · exact hinner l x hx
    · exact hnumbers l x hx

omit hnumber hnumber' in
theorem Sheet.spell_eq_spell (es : Sheet) :
    ∀ {level : Nat} {first : Bool},
      (∀ k x, (k, Scalar.number x) ∈ es.leaves → number x = number' x) →
        es.spell .none number level first = es.spell .none number' level first := by
  induction es using Sheet.induction with
  | nil => exact fun _ => rfl
  | scalar k w rest ih =>
    intro level first h
    have hrest := @ih level false fun l x hx => h l x (List.mem_append_right _ hx)
    have hscalar : w.written number = w.written number' := by
      cases w with
      | text s => rfl
      | number x => exact h k x (List.mem_append_left _ (List.mem_singleton.mpr rfl))
    rw [spell, spell, hrest, Style.spell, Style.spell, hscalar]
  | scope k inner rest ihinner ihrest =>
    intro level first h
    have hinner := @ihinner (level + 1) true fun l x hx => h l x (List.mem_append_left _ hx)
    have hrest := @ihrest level false fun l x hx => h l x (List.mem_append_right _ hx)
    rw [spell, spell, hrest, Style.spell, Style.spell, hinner]

/-- Two compact texts of one tree are equal exactly if they agree number by number. -/
theorem Sheet.compact_eq_compact_iff (es : Sheet) :
    es.compact number = es.compact number' ↔
      ∀ k x, (k, Scalar.number x) ∈ es.leaves → number x = number' x := by
  have hspell (writer : Number → String) :
      (es.compact writer).toList = '\x7b' :: es.spell .none writer 0 true :=
    Style.toList_compact es 0
  rw [← String.toList_inj, hspell, hspell, List.cons.injEq]
  constructor
  · rintro ⟨-, h⟩
    exact (eq_of_spell_append_eq hnumber hnumber' es (congrArg (· ++ []) h)).1
  · exact fun h => ⟨rfl, spell_eq_spell es h⟩

end Compact

/-! ### Numbers with one text -/

/-- Both layouts write the decimal alike: either with an exponent, or positionally with digits
behind the point. -/
def Decimal.LaidOutAlike (d : Decimal) : Prop :=
  d.point < -5 ∨ -4 ≤ d.point ∧ d.point ≤ 16 ∧ d.point < d.digits.length ∨ 21 < d.point

namespace Number

/-- The integer whose digits a JSON document shows, if the number is one below the limit. -/
def shownInteger? (x : Number) : Option Int :=
  x.toInt?.filter (·.natAbs < integerLimit)

/-- The JSON text of the number is its canonical text. What is not finite is `null` in both. The
digits that JSON shows of an integer have to be the shortest ones and zeros; of any other number the
shortest decimal has to be the same for both ways to resolve a tie, and laid out alike. -/
def CanonicalInJson (x : Number) : Prop :=
  match x with
  | .nan | .infinite _ => True
  | .finite _ e f =>
    x.isZero = true ∨ match x.shownInteger? with
      | some i => (Interval.ofFields e f).shortest .up = Decimal.ofNat i.natAbs 0
      | none => (Interval.ofFields e f).shortest .up = (Interval.ofFields e f).shortest .even ∧
          ((Interval.ofFields e f).shortest .up).LaidOutAlike

variable {negative : Bool} {e : Fin 2047} {f : Fin fractionCount} {i : Int} {x : Number}

theorem jsonText_of_shownInteger? (h : x.shownInteger? = some i) : x.jsonText = toString i := by
  obtain ⟨hi, hlimit⟩ := Option.filter_eq_some_iff.mp h
  rw [jsonText, hi]
  exact if_pos (by simpa using hlimit)

theorem jsonText_of_shownInteger?_eq_none (h : x.shownInteger? = none) :
    x.jsonText = x.floatText := by
  rw [shownInteger?, Option.filter_eq_none_iff] at h
  rw [jsonText]
  cases hi : x.toInt? with
  | none => rfl
  | some i => exact if_neg (by simpa using h i hi)

theorem significand_pos (h : (finite negative e f).isZero = false) : 0 < significand e f := by
  rw [significand]
  split
  · next he =>
    apply Nat.pos_of_ne_zero
    intro hf
    simp [isZero, he, hf] at h
  · exact Nat.add_pos_right _ (by decide)

theorem canonicalNumber_of_isZero_eq_false (h : (finite negative e f).isZero = false) :
    Sheet.canonicalNumber (finite negative e f) = Layout.style.writeFields negative e f := by
  have hfinite : (finite negative e f).isFinite = true := rfl
  rw [Sheet.canonicalNumber, if_pos hfinite, styleText, h, if_neg (by decide)]

theorem floatText_of_isZero_eq_false (h : (finite negative e f).isZero = false) :
    (finite negative e f).floatText = Layout.json.writeFields negative e f := by
  rw [floatText, h, if_neg (by decide)]

theorem jsonText_eq_iff_of_shownInteger? (hzero : (finite negative e f).isZero = false)
    (h : (finite negative e f).shownInteger? = some i) :
    (finite negative e f).jsonText = Sheet.canonicalNumber (finite negative e f) ↔
      (Interval.ofFields e f).shortest .up = Decimal.ofNat i.natAbs 0 := by
  obtain ⟨hi, hlimit⟩ := Option.filter_eq_some_iff.mp h
  have hlimit : i.natAbs < integerLimit := by simpa using hlimit
  have hne : i ≠ 0 := by
    intro heq
    have hiszero := (isZero_iff_of_toInt? hi).mpr heq
    rw [hzero] at hiszero
    exact absurd hiszero nofun
  have hpos : 0 < i.natAbs := Int.natAbs_pos.mpr hne
  have hlength : (Nat.toDigits 10 i.natAbs).length ≤ 19 :=
    (Nat.length_toDigits_le_iff (by decide) (by decide)).mpr
      (Nat.lt_trans hlimit (by decide))
  obtain ⟨hlow, hvalue⟩ := Interval.ofFields_pos (significand_pos hzero)
  rw [jsonText_of_shownInteger? h, canonicalNumber_of_isZero_eq_false hzero, Layout.writeFields,
    ← toString_eq_sign_append hne (toInt?_eq_some hi).1, String.append_right_inj,
    ← Layout.write_style_ofNat (by omega), Layout.write_inj (Decimal.isNormal_ofNat hpos 0)
      (Interval.isNormal_shortest hlow hvalue _)]
  exact eq_comm

theorem jsonText_eq_iff_of_shownInteger?_eq_none (hzero : (finite negative e f).isZero = false)
    (h : (finite negative e f).shownInteger? = none) :
    (finite negative e f).jsonText = Sheet.canonicalNumber (finite negative e f) ↔
      (Interval.ofFields e f).shortest .up = (Interval.ofFields e f).shortest .even ∧
        ((Interval.ofFields e f).shortest .up).LaidOutAlike := by
  obtain ⟨hlow, hvalue⟩ := Interval.ofFields_pos (significand_pos hzero)
  rw [jsonText_of_shownInteger?_eq_none h, canonicalNumber_of_isZero_eq_false hzero,
    floatText_of_isZero_eq_false hzero, Layout.writeFields, Layout.writeFields,
    String.append_right_inj, eq_comm]
  exact Layout.write_style_eq_write_json_iff (Interval.isNormal_shortest hlow hvalue _)
    (Interval.isNormal_shortest hlow hvalue _)

/-- Which numbers have one text. -/
theorem jsonText_eq_iff (x : Number) :
    x.jsonText = Sheet.canonicalNumber x ↔ x.CanonicalInJson := by
  cases x with
  | nan => exact iff_of_true rfl trivial
  | infinite negative => exact iff_of_true rfl trivial
  | finite negative e f =>
    unfold CanonicalInJson
    cases hzero : (finite negative e f).isZero with
    | true =>
      obtain ⟨rfl, rfl⟩ := eq_zero_of_isZero hzero
      refine iff_of_true ?_ (.inl rfl)
      cases negative <;> decide +kernel
    | false =>
      cases h : (finite negative e f).shownInteger? with
      | some i => simpa using jsonText_eq_iff_of_shownInteger? hzero h
      | none => simpa using jsonText_eq_iff_of_shownInteger?_eq_none hzero h

end Number

/-! ### Integers -/

theorem Sheet.canonicalNumber_of_toInt?_eq_some {x : Number} {i : Int} (h : x.toInt? = some i)
    (hi : i.natAbs ≤ 2 ^ 53) : canonicalNumber x = toString i := by
  have hfinite : x.isFinite := by
    cases x with
    | nan => exact absurd h nofun
    | infinite negative => exact absurd h nofun
    | finite negative e f => rfl
  rw [canonicalNumber, if_pos hfinite, Number.styleText_of_toInt?_eq_some h hi]

theorem Number.jsonText_of_toInt?_eq_some {x : Number} {i : Int} (h : x.toInt? = some i)
    (hi : i.natAbs ≤ 2 ^ 53) : x.jsonText = toString i := by
  have hlimit : i.natAbs < integerLimit := Nat.lt_of_le_of_lt hi (by decide)
  simp only [jsonText, h, if_pos hlimit]

theorem Number.canonicalInJson_of_toInt?_eq_some {x : Number} {i : Int} (h : x.toInt? = some i)
    (hi : i.natAbs ≤ 2 ^ 53) : x.CanonicalInJson := by
  rw [← Number.jsonText_eq_iff, Number.jsonText_of_toInt?_eq_some h hi,
    Sheet.canonicalNumber_of_toInt?_eq_some h hi]

theorem Number.canonicalInJson_of_isFinite_eq_false {x : Number} (h : x.isFinite = false) :
    x.CanonicalInJson := by
  cases x with
  | nan => trivial
  | infinite negative => trivial
  | finite negative e f => exact absurd h nofun

/-! ### The two texts of a tree -/

namespace Sheet

theorem isPart_of_mem_toString {i : Int} {c : Char} (h : c ∈ (toString i).toList) :
    Number.isPart c := by
  cases i with
  | ofNat n =>
    rw [Json.Numeral.toList_toString_ofNat] at h
    exact Number.isPart_of_isDigit (Json.Numeral.isDigit_of_mem_toDigits h)
  | negSucc n =>
    rw [Json.Numeral.toList_toString_negSucc] at h
    rcases List.mem_cons.mp h with rfl | h
    · rfl
    · exact Number.isPart_of_isDigit (Json.Numeral.isDigit_of_mem_toDigits h)

theorem isDelimiter_of_mem_jsonText (x : Number) :
    ∀ c ∈ x.jsonText.toList, isDelimiter c = false := by
  cases h : x.shownInteger? with
  | some i =>
    rw [Number.jsonText_of_shownInteger? h]
    exact fun c hc => isDelimiter_of_isPart (isPart_of_mem_toString hc)
  | none =>
    rw [Number.jsonText_of_shownInteger?_eq_none h]
    cases x with
    | nan => exact isDelimiter_of_mem_null
    | infinite negative => exact isDelimiter_of_mem_null
    | finite negative e f =>
      cases hzero : (Number.finite negative e f).isZero with
      | true =>
        obtain ⟨rfl, rfl⟩ := Number.eq_zero_of_isZero hzero
        have hpart : (Number.zero negative).floatText.toList.all Number.isPart := by
          cases negative <;> decide
        exact fun c hc => isDelimiter_of_isPart (Number.isPart_of_all hpart c hc)
      | false =>
        rw [Number.floatText_of_isZero_eq_false hzero]
        exact fun c hc => isDelimiter_of_isPart (Layout.isPart_of_mem_writeFields c hc)

/-- The JSON document of a tree on one line is its canonical text exactly if each of its numbers has
one text; so it is if the numbers are integers of magnitude at most `2 ^ 53` or not finite. -/
theorem json_eq_canonical_iff (es : Sheet) :
    (es.json = es.canonical ↔
      ∀ k x, (k, Scalar.number x) ∈ es.leaves → x.CanonicalInJson) ∧
    ((∀ k x, (k, Scalar.number x) ∈ es.leaves →
        x.isFinite = false ∨ ∃ i, x.toInt? = some i ∧ i.natAbs ≤ 2 ^ 53) →
      es.json = es.canonical) := by
  have hiff : es.json = es.canonical ↔
      ∀ k x, (k, Scalar.number x) ∈ es.leaves → x.CanonicalInJson := by
    rw [json, canonical,
      compact_eq_compact_iff isDelimiter_of_mem_jsonText isDelimiter_of_mem_canonicalNumber]
    simp only [Number.jsonText_eq_iff]
  refine ⟨hiff, fun h => hiff.mpr fun k x hx => ?_⟩
  rcases h k x hx with hfinite | ⟨i, hi, hlimit⟩
  · exact Number.canonicalInJson_of_isFinite_eq_false hfinite
  · exact Number.canonicalInJson_of_toInt?_eq_some hi hlimit

/-- A millionth is positional as a style value, and has an exponent in a JSON document. -/
theorem json_ne_canonical_millionth :
    let es : Sheet := [("opacity", .scalar (.number (.roundRatio false ⟨1, 1000000⟩)))]
    es.canonical = "\x7b\"opacity\":0.000001\x7d" ∧ es.json = "\x7b\"opacity\":1e-6\x7d" ∧
      es.json ≠ es.canonical := by
  decide +kernel

end Sheet

end StyleTree
