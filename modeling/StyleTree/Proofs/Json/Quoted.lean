import StyleTree.Proofs.Json.Escapes
import StyleTree.Text.Quoted

/-!
# Reading a quoted text

What the writer puts between quotation marks is what the reader takes off: the reader stops at the
closing mark, whatever stands behind it, and gives the text back. So a literal has one meaning, and
it shows where it ends.

## Main results

* `Reader.text_escape` — a written text is read back, and what stands behind it is left
* `quoteChars_append_inj` — a text of which a literal is the beginning has no other such beginning
-/

namespace StyleTree

namespace Json.Reader

open Text (escape hexDigit)

variable {c : Char} {rest : List Char}

theorem hexUnit?_hexDigit :
    ∀ n < 0x20, hexUnit? '0' '0' (hexDigit (n / 16)) (hexDigit (n % 16)) = some n := by
  decide

/-- Whatever a character becomes inside a literal, it stands for the character. -/
theorem charSpelt_escape : CharSpelt (escape c ++ rest) c rest := by
  unfold escape
  split
  · next h => subst h; exact .short rfl
  split
  · next h => subst h; exact .short rfl
  split
  · next hquote hslash hc => exact .plain hquote hslash hc
  -- What is left are control characters, five of which have a short escape.
  split
  · next h => subst h; exact .short rfl
  split
  · next h => subst h; exact .short rfl
  split
  · next h => subst h; exact .short rfl
  split
  · next h => subst h; exact .short rfl
  split
  · next h => subst h; exact .short rfl
  next hc _ _ _ _ _ =>
    have hlt : c.toNat < 0x20 := Nat.not_le.mp hc
    have hleading : isLeading c.toNat = false := by simp [isLeading]; omega
    have htrailing : isTrailing c.toNat = false := by simp [isTrailing]; omega
    have hspelt : CharSpelt (['\\', 'u', '0', '0', hexDigit (c.toNat / 16),
        hexDigit (c.toNat % 16)] ++ rest) (Char.ofNat c.toNat) rest :=
      .unit (hexUnit?_hexDigit c.toNat hlt) hleading htrailing
    rwa [Char.ofNat_toNat] at hspelt

theorem textSpelt_flatMap_escape (cs : List Char) :
    TextSpelt (cs.flatMap escape ++ '"' :: rest) cs rest := by
  induction cs with
  | nil => exact .close
  | cons c cs ih =>
    rw [List.flatMap_cons, List.append_assoc]
    exact .char charSpelt_escape ih

/-- A written text is read back, and what stands behind its literal is left. -/
theorem text_escape (s : String) :
    text (s.toList.flatMap escape ++ '"' :: rest) = .ok (s, rest) :=
  text_eq (textSpelt_flatMap_escape s.toList)

end Json.Reader

namespace Text

open Json (Reader)

/-- A text that begins with the literal of a text begins with no other literal. -/
theorem quoteChars_append_inj {s t : String} {u v : List Char} :
    quoteChars s.toList ++ u = quoteChars t.toList ++ v ↔ s = t ∧ u = v := by
  constructor
  · intro h
    simp only [quoteChars, List.cons_append, List.append_assoc, List.nil_append,
      List.cons.injEq, true_and] at h
    -- The reader tells both the text and the rest, and it reads one and the same input.
    have hread := congrArg Reader.text h
    rw [Reader.text_escape, Reader.text_escape] at hread
    exact Prod.mk.inj (Except.ok.inj hread)
  · rintro ⟨rfl, rfl⟩
    rfl

end Text

end StyleTree
