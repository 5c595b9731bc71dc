/-!
# Blanks

The characters with the Unicode property `White_Space`, and the two ways in which style text loses
them: at both ends (`trim`) and everywhere (`removeBlanks`).

## Main definitions

* `Text.isBlank` — the property, as a test of characters
* `Text.trim` — drops blanks at both ends
* `Text.removeBlanks` — drops every blank

## Main results

* `isBlank_of_isWhitespace` — the blanks of ASCII are blanks
* `mem_removeBlanks_iff` — what is left are exactly the characters that are no blanks
-/

namespace StyleTree.Text

/-- The ranges of code points with the Unicode property `White_Space`, in order. -/
def blankRanges : List (Nat × Nat) :=
  [(0x09, 0x0D), (0x20, 0x20), (0x85, 0x85), (0xA0, 0xA0), (0x1680, 0x1680), (0x2000, 0x200A),
   (0x2028, 0x2029), (0x202F, 0x202F), (0x205F, 0x205F), (0x3000, 0x3000)]

/-- A blank is a character with the Unicode property `White_Space`. -/
def isBlank (c : Char) : Bool :=
  blankRanges.any fun r => r.1 ≤ c.toNat && c.toNat ≤ r.2

/-- The blanks of ASCII known to the core library are blanks. -/
theorem isBlank_of_isWhitespace {c : Char} (h : c.isWhitespace) : isBlank c := by
  simp only [Char.isWhitespace, Bool.or_eq_true, decide_eq_true_eq] at h
  rcases h with ((h | h) | h) | h <;> subst h <;> decide

/-- Drops the blanks at both ends of a text given by its characters. -/
def trimChars (cs : List Char) : List Char :=
  ((cs.dropWhile isBlank).reverse.dropWhile isBlank).reverse

/-- Drops the blanks at both ends. -/
def trim (s : String) : String :=
  String.ofList (trimChars s.toList)

/-- Drops every blank. -/
def removeBlanks (s : String) : String :=
  String.ofList (s.toList.filter (!isBlank ·))

theorem mem_removeBlanks_iff {c : Char} {s : String} :
    c ∈ (removeBlanks s).toList ↔ c ∈ s.toList ∧ isBlank c = false := by
  simp [removeBlanks]

end StyleTree.Text
