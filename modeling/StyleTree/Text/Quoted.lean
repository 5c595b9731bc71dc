/-!
# Quoted text

A text as a JSON string literal: in quotation marks, with a backslash before each quotation mark and
each backslash, and with an escape for every control character below U+0020. The short escapes are
used where JSON has one; every other character, beyond ASCII too, stands for itself.

## Main definitions

* `Text.escape` — what one character becomes inside the quotation marks
* `Text.quote` — the literal of a text
-/

namespace StyleTree.Text

/-- The hexadecimal digit of a number below sixteen, in small letters. -/
def hexDigit (n : Nat) : Char :=
  if n < 10 then Char.ofNat (48 + n) else Char.ofNat (87 + n)

/-- The characters that stand for `c` inside a string literal. -/
def escape (c : Char) : List Char :=
  if c = '"' then ['\\', '"']
  else if c = '\\' then ['\\', '\\']
  else if 0x20 ≤ c.toNat then [c]
  else if c = '\x08' then ['\\', 'b']
  else if c = '\x0c' then ['\\', 'f']
  else if c = '\n' then ['\\', 'n']
  else if c = '\x0d' then ['\\', 'r']
  else if c = '\t' then ['\\', 't']
  else ['\\', 'u', '0', '0', hexDigit (c.toNat / 16), hexDigit (c.toNat % 16)]

/-- The characters of the string literal for a text. -/
def quoteChars (cs : List Char) : List Char :=
  '"' :: (cs.flatMap escape ++ ['"'])

/-- The string literal of a text. -/
def quote (s : String) : String :=
  String.ofList (quoteChars s.toList)

end StyleTree.Text
