import StyleTree.Json.Reader

/-!
# Texts in a document

A text ends at its closing quotation mark. A character below U+0020 must be escaped, by one of the
short escapes or by four hexadecimal digits; a character beyond the Basic Multilingual Plane is
escaped as a surrogate pair.

## Main definitions

* `Reader.hexUnit?` — the four digits of an escape
* `Reader.text` — a text after its opening quotation mark
* `Reader.skipText` — a text of which only the form is checked; surrogates need no partner there
-/

namespace StyleTree.Json.Reader

/-- The value of a hexadecimal digit. -/
def hexValue? (c : Char) : Option Nat :=
  if c.isDigit then some (c.toNat - 48)
  else if 'a' ≤ c ∧ c ≤ 'f' then some (c.toNat - 87)
  else if 'A' ≤ c ∧ c ≤ 'F' then some (c.toNat - 55)
  else none

/-- The code unit of four hexadecimal digits. -/
def hexUnit? (a b c d : Char) : Option Nat := do
  return (← hexValue? a) * 4096 + (← hexValue? b) * 256 + (← hexValue? c) * 16 + (← hexValue? d)

/-- The fault of an escape without four hexadecimal digits, of which `cs` is left: it is reported
after four bytes, if there are that many. -/
def hexFault (cs : List Char) : Fault :=
  if byteLength cs < 4 then .before .endInText [] else .placed .badEscape (byteLength cs - 4)

/-- The character of a short escape. -/
def shortEscape? (c : Char) : Option Char :=
  match c with
  | '"' => some '"'
  | '\\' => some '\\'
  | '/' => some '/'
  | 'b' => some '\x08'
  | 'f' => some '\x0c'
  | 'n' => some '\n'
  | 'r' => some '\x0d'
  | 't' => some '\t'
  | _ => none

/-- Whether a code unit is the first one of a surrogate pair. -/
def isLeading (unit : Nat) : Bool := 0xD800 ≤ unit && unit ≤ 0xDBFF

/-- Whether a code unit is the second one of a surrogate pair. -/
def isTrailing (unit : Nat) : Bool := 0xDC00 ≤ unit && unit ≤ 0xDFFF

/-- The character of a surrogate pair. -/
def ofSurrogates (leading trailing : Nat) : Char :=
  Char.ofNat (0x10000 + (leading - 0xD800) * 0x400 + (trailing - 0xDC00))

/-- The rest of a text. `leading` is an escaped surrogate that waits for its partner, and `acc`
holds the characters so far, the last one first. -/
def textFrom (leading : Option Nat) (acc : List Char) : Reader String
  | [] => .error (.before .endInText [])
  | c :: cs =>
    if c = '\\' then
      match cs with
      | [] => .error (.before .endInText [])
      | e :: cs' =>
        if e = 'u' then
          match cs' with
          | h₁ :: h₂ :: h₃ :: h₄ :: rest =>
            match hexUnit? h₁ h₂ h₃ h₄, leading with
            | none, _ => .error (hexFault cs')
            | some unit, none =>
              if isTrailing unit then .error (.before .loneSurrogate rest)
              else if isLeading unit then textFrom (some unit) acc rest
              else textFrom none (Char.ofNat unit :: acc) rest
            | some unit, some first =>
              if isTrailing unit then textFrom none (ofSurrogates first unit :: acc) rest
              else .error (.before .loneSurrogate rest)
          | _ => .error (hexFault cs')
        else if leading.isSome then .error (.inside .surrogateUnpaired (e :: cs'))
        else
          match shortEscape? e with
          | some x => textFrom none (x :: acc) cs'
          | none => .error (.inside .badEscape (e :: cs'))
    else if leading.isSome then .error (.inside .surrogateUnpaired (c :: cs))
    else if c = '"' then .ok (String.ofList acc.reverse, cs)
    else if c.toNat < 0x20 then .error (.inside .controlCharacter (c :: cs))
    else textFrom none (c :: acc) cs

/-- A text after its opening quotation mark. -/
def text : Reader String := textFrom none []

/-- Checks the form of a text after its opening quotation mark. -/
def skipText : Reader Unit
  | [] => .error (.before .endInText [])
  | c :: cs =>
    if c = '\\' then
      match cs with
      | [] => .error (.before .endInText [])
      | e :: cs' =>
        if e = 'u' then
          match cs' with
          | h₁ :: h₂ :: h₃ :: h₄ :: rest =>
            if (hexUnit? h₁ h₂ h₃ h₄).isSome then skipText rest else .error (hexFault cs')
          | _ => .error (hexFault cs')
        else if (shortEscape? e).isSome then skipText cs'
        else .error (.inside .badEscape (e :: cs'))
    else if c = '"' then .ok ((), cs)
    else if c.toNat < 0x20 then .error (.before .controlCharacter (c :: cs))
    else skipText cs

end StyleTree.Json.Reader
