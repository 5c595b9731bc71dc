import StyleTree.Text.Numeral
import StyleTree.Text.Utf16

/-!
# Fingerprints

The short text that stands for a longer one in a class name: a rolling hash over the UTF-16 code
units, `h * 31 + unit` in signed 32-bit arithmetic, whose magnitude is written in base 36. Different
texts can have the same fingerprint.

## Main definitions

* `Text.rollingHash` — the signed hash
* `Text.fingerprint` — its magnitude as a numeral

## Main results

* `rollingHash_append` — the hash of a concatenation continues from the hash of the first part
-/

namespace StyleTree.Text

/-- One step of the rolling hash. -/
def hashStep (h : Int32) (unit : Nat) : Int32 :=
  h * 31 + Int32.ofNat unit

/-- The rolling hash of a text. -/
def rollingHash (s : String) : Int32 :=
  (codeUnits s).foldl hashStep 0

theorem rollingHash_append (s t : String) :
    rollingHash (s ++ t) = (codeUnits t).foldl hashStep (rollingHash s) := by
  simp [rollingHash]

/-- The magnitude of the rolling hash as a numeral; the least hash has the magnitude `2 ^ 31`. -/
def fingerprint (s : String) : String :=
  base36 (rollingHash s).toInt.natAbs

end StyleTree.Text
