/-!
# Hyphenated property names

A property is written in camel case in a style tree and with hyphens in a style sheet. Every ASCII
capital becomes a hyphen and its small letter, wherever it stands, so `WebkitTransition` becomes
`-webkit-transition`; every other character, a capital of another alphabet too, stays as it is.

## Main definitions

* `Text.hyphenateChar` — what one character becomes
* `Text.hyphenate` — the whole text, character by character

## Main results

* `hyphenate_append` — hyphenation works piece by piece
* `mem_of_mem_hyphenate` — hyphenation adds no characters but hyphens and small letters
-/

namespace StyleTree.Text

/-- An ASCII capital becomes a hyphen and its small letter. -/
def hyphenateChar (c : Char) : List Char :=
  if c.isUpper then ['-', c.toLower] else [c]

/-- Writes a camel case property name with hyphens. -/
def hyphenate (s : String) : String :=
  String.ofList (s.toList.flatMap hyphenateChar)

theorem toList_hyphenate (s : String) :
    (hyphenate s).toList = s.toList.flatMap hyphenateChar := by
  simp [hyphenate]

theorem hyphenate_append (s t : String) : hyphenate (s ++ t) = hyphenate s ++ hyphenate t := by
  rw [← String.toList_inj]
  simp [toList_hyphenate]

theorem toNat_of_isUpper {c : Char} (h : c.isUpper) : 65 ≤ c.toNat ∧ c.toNat ≤ 90 := by
  have hrange : c.val ≥ 'A'.val ∧ c.val ≤ 'Z'.val := of_decide_eq_true h
  exact ⟨UInt32.le_iff_toNat_le.mp hrange.1, UInt32.le_iff_toNat_le.mp hrange.2⟩

/-- The small letters stand 32 places behind the capitals. -/
theorem toNat_toLower {c : Char} (h : c.isUpper) : c.toLower.toNat = c.toNat + 32 := by
  have hrange := toNat_of_isUpper h
  have hval : c.toLower.val = c.val + 32 := congrArg Char.val (dif_pos (of_decide_eq_true h))
  have hsum : c.toLower.val.toNat = c.toNat + 32 := by
    rw [hval, UInt32.toNat_add]
    exact Nat.mod_eq_of_lt (show c.toNat + 32 < 2 ^ 32 by omega)
  exact hsum

theorem isLower_toLower {c : Char} (h : c.isUpper) : c.toLower.isLower := by
  have hrange := toNat_of_isUpper h
  have hsum := toNat_toLower h
  have ha : c.toLower.val ≥ 'a'.val :=
    UInt32.le_iff_toNat_le.mpr (show 97 ≤ c.toLower.toNat by omega)
  have hz : c.toLower.val ≤ 'z'.val :=
    UInt32.le_iff_toNat_le.mpr (show c.toLower.toNat ≤ 122 by omega)
  exact Bool.and_eq_true_iff.mpr ⟨decide_eq_true ha, decide_eq_true hz⟩

/-- Hyphenation adds no characters but hyphens and small letters. -/
theorem mem_of_mem_hyphenate {c : Char} {s : String} (h : c ∈ (hyphenate s).toList)
    (hhyphen : c ≠ '-') (hlower : c.isLower = false) : c ∈ s.toList := by
  rw [toList_hyphenate] at h
  obtain ⟨a, ha, hc⟩ := List.mem_flatMap.mp h
  unfold hyphenateChar at hc
  split at hc
  next hupper =>
    have hsmall := isLower_toLower hupper
    have : c = '-' ∨ c = a.toLower := by simpa using hc
    rcases this with rfl | rfl
    · exact absurd rfl hhyphen
    · simp [hsmall] at hlower
  next =>
    obtain rfl : c = a := by simpa using hc
    exact ha

end StyleTree.Text
