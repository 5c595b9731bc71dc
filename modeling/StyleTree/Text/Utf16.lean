/-!
# UTF-16 code units

A text as the sequence of its UTF-16 code units: one unit for a character of the Basic Multilingual
Plane, a surrogate pair for every other character.

## Main definitions

* `Text.codeUnitsOfChar` — the one or two units of a character
* `Text.codeUnits` — the units of a text

## Main results

* `codeUnits_append` — the units of a concatenation
* `codeUnitsOfChar_lt` — every unit fits sixteen bits
-/

namespace StyleTree.Text

/-- The UTF-16 code units of one character. -/
def codeUnitsOfChar (c : Char) : List Nat :=
  if c.toNat < 0x10000 then [c.toNat]
  else [0xD800 + (c.toNat - 0x10000) / 0x400, 0xDC00 + (c.toNat - 0x10000) % 0x400]

/-- The UTF-16 code units of a text. -/
def codeUnits (s : String) : List Nat :=
  s.toList.flatMap codeUnitsOfChar

@[simp] theorem codeUnits_append (s t : String) :
    codeUnits (s ++ t) = codeUnits s ++ codeUnits t := by
  simp [codeUnits]

/-- Every unit fits sixteen bits. -/
theorem codeUnitsOfChar_lt {c : Char} {u : Nat} (h : u ∈ codeUnitsOfChar c) : u < 0x10000 := by
  have hc : c.toNat < 0x110000 := by
    have := c.valid
    simp only [UInt32.isValidChar, Nat.isValidChar] at this
    simp only [Char.toNat]
    omega
  unfold codeUnitsOfChar at h
  split at h
  · simp only [List.mem_singleton] at h
    omega
  · simp only [List.mem_cons, List.not_mem_nil, or_false] at h
    omega

end StyleTree.Text
